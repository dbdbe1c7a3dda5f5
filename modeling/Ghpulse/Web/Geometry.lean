import Ghpulse.Web.Stacked

/-!
# Hit testing

Where a chart draws a time, and which bin is under the pointer. Both maps are affine over the range, and
inverse to each other, so the bin that is found is the one that is drawn there (`timeX_le_iff`). A tooltip
is shown exactly over the plot, and the numbers in it are those of the bin under the pointer and of the
lines where that bin ends (`Shows`).

Reference: `src/dashboard-charts.jsx`.
-/

open Python Js

namespace Ghpulse.Web

/-! ## The time axis

Times are clamped to the plot, and a pointer outside of it has no bin.
-/

/-- `timeX`. -/
def timeX (ts : ℚ) (range : Range) (padL plotW : ℚ) : ℚ :=
  match range.start, range.stop with
  | .finite start, .finite stop =>
    if stop - start ≤ 0 then padL
    else min (padL + max 0 plotW) (max padL (padL + (ts - start) / (stop - start) * max 0 plotW))
  | _, _ => padL

/-- `timeBinIndexAtX`; a time that is not finite lies in no bin. -/
def timeBinIndexAtX (bins : List Bin) (range : Range) (padL plotW x : ℚ) : ℤ :=
  if bins = [] ∨ plotW ≤ 0 ∨ x < padL ∨ padL + plotW < x then -1
  else
    match range.start, range.stop with
    | .finite start, .finite stop =>
      let ts := start + (x - padL) / plotW * (stop - start)
      match bins.zipIdx.findIdx? fun (bin, index) => decide (bin.start ≤ ts ∧
        (ts < bin.stop ∨ index = bins.length - 1 ∧ ts = bin.stop)) with
      | some index => index
      | none => -1
    | _, _ => -1

/-! ## The tooltip

The lines of a tooltip are built for one bin: two for each series, one for the interval, and one share for
each series.
-/

/-- How a tooltip writes numbers, shares and dates, and the colour of text. -/
structure Format where
  humanFmt : ℚ → Str
  text : ℚ → Str
  percent : ℚ → Str
  fullDate : ℚ → Str
  textColor : Str

/-- A line of a tooltip. -/
structure Line where
  label : Str
  value : Str
  color : Option Str

/-- `buildTooltipLines`. -/
def buildTooltipLines (format : Format) (bin : Bin) (cumulative : Str → List Point)
    (series : List Series) (binIdx : ℕ) (totals : Str → ℚ) : List Line :=
  (series.flatMap fun item =>
    [⟨item.label ++ lit " period", format.humanFmt (max 0 (bin.values item.key)), some item.color⟩,
      ⟨item.label ++ lit " cumulative",
        format.humanFmt ((cumulative item.key)[binIdx + 1]?.elim 0 Point.v), some item.color⟩]) ++
  ⟨lit "interval events", format.text bin.total, none⟩ ::
    series.map fun item =>
      ⟨item.label ++ lit " % selected-range total",
        if 0 < max 0 (totals item.key) then
          format.percent (max 0 (bin.values item.key) / max 0 (totals item.key) * 100)
        else lit "0%", some item.color⟩

/-- What `setTip` is given. -/
structure Tip where
  x : ℚ
  y : ℚ
  idx : ℕ
  title : Str
  accent : Str
  lines : List Line

/-- `onMouseMove`, with the pointer relative to the panel. -/
def onMouseMove (format : Format) (data : StackedData) (series : List Series) (range : Range)
    (padL plotW padT plotH mx my : ℚ) : Option Tip :=
  if my < padT ∨ padT + plotH < my then none
  else
    match timeBinIndexAtX data.bins range padL plotW mx with
    | .negSucc _ => none
    | .ofNat idx =>
      data.bins[idx]?.map fun bin =>
        { x := mx, y := my, idx
          title := format.fullDate bin.start ++ lit " – " ++ format.fullDate bin.stop ++ lit " UTC"
          accent := series.head?.elim format.textColor Series.color
          lines := buildTooltipLines format bin data.cumulative series idx data.totals }

/-- The two lines that a tooltip has for each item come one after the other. -/
theorem getElem?_pairs {α β : Type} (f g : α → β) {items : List α} {item : α} (rest : List β) {k : ℕ}
    (h : items[k]? = some item) :
    ((items.flatMap fun item => [f item, g item]) ++ rest)[2 * k]? = some (f item) ∧
      ((items.flatMap fun item => [f item, g item]) ++ rest)[2 * k + 1]? = some (g item) := by
  induction items generalizing k with
  | nil => cases h
  | cons first items ih =>
    cases k with
    | zero =>
      obtain rfl := Option.some.inj h
      exact ⟨rfl, rfl⟩
    | succ k =>
      rw [List.getElem?_cons_succ] at h
      exact ih h

/-! ## Both maps

The axis is clamped, but between the ends of the range the clamps do nothing, and what is left is an
affine map with an inverse.
-/

section Maps

variable (axis : Axis) {padL plotW t x : ℚ}

/-- The range of an axis. -/
def Axis.range : Range := ⟨.finite axis.start, .finite axis.stop⟩

/-- The time that is drawn at a place. -/
def timeAt (padL plotW x : ℚ) : ℚ := axis.start + (x - padL) / plotW * (axis.stop - axis.start)

theorem span_pos : 0 < axis.stop - axis.start := sub_pos.mpr axis.start_lt_stop

/-- A time of the range is drawn within the plot, where the affine map says. -/
theorem timeX_eq (hW : 0 ≤ plotW) (hstart : axis.start ≤ t) (hstop : t ≤ axis.stop) :
    timeX t axis.range padL plotW =
      padL + (t - axis.start) / (axis.stop - axis.start) * plotW := by
  have hspan := span_pos axis
  have hshare : 0 ≤ (t - axis.start) / (axis.stop - axis.start) :=
    div_nonneg (sub_nonneg.mpr hstart) hspan.le
  have hone : (t - axis.start) / (axis.stop - axis.start) ≤ 1 :=
    (div_le_one hspan).mpr (sub_le_sub_right hstop _)
  have hunfold : timeX t axis.range padL plotW =
      if axis.stop - axis.start ≤ 0 then padL
      else min (padL + max 0 plotW)
        (max padL (padL + (t - axis.start) / (axis.stop - axis.start) * max 0 plotW)) := rfl
  rw [hunfold, if_neg (not_le.mpr hspan), max_eq_right hW]
  have hleft : padL ≤ padL + (t - axis.start) / (axis.stop - axis.start) * plotW :=
    le_add_of_nonneg_right (mul_nonneg hshare hW)
  rw [max_eq_right hleft]
  exact min_eq_right (add_le_add_right (mul_le_of_le_one_left hW hone) padL)

/-- A time of the range is drawn at or before a place exactly when it is not after the time drawn there. -/
theorem timeX_le_iff (hW : 0 < plotW) (hstart : axis.start ≤ t) (hstop : t ≤ axis.stop) :
    timeX t axis.range padL plotW ≤ x ↔ t ≤ timeAt axis padL plotW x := by
  rw [timeX_eq axis hW.le hstart hstop, timeAt, ← le_sub_iff_add_le', ← le_div_iff₀ hW,
    div_le_iff₀ (span_pos axis), ← sub_le_iff_le_add']

theorem le_timeX_iff (hW : 0 < plotW) (hstart : axis.start ≤ t) (hstop : t ≤ axis.stop) :
    x ≤ timeX t axis.range padL plotW ↔ timeAt axis padL plotW x ≤ t := by
  rw [timeX_eq axis hW.le hstart hstop, timeAt, ← sub_le_iff_le_add', ← div_le_iff₀ hW,
    le_div_iff₀ (span_pos axis), ← le_sub_iff_add_le']

theorem lt_timeX_iff (hW : 0 < plotW) (hstart : axis.start ≤ t) (hstop : t ≤ axis.stop) :
    x < timeX t axis.range padL plotW ↔ timeAt axis padL plotW x < t := by
  rw [← not_le, timeX_le_iff axis hW hstart hstop, not_le]

theorem eq_timeX_iff (hW : 0 < plotW) (hstart : axis.start ≤ t) (hstop : t ≤ axis.stop) :
    x = timeX t axis.range padL plotW ↔ timeAt axis padL plotW x = t := by
  rw [le_antisymm_iff, le_antisymm_iff, le_timeX_iff axis hW hstart hstop,
    timeX_le_iff axis hW hstart hstop]

/-- What lies within the plot is drawn from the range. -/
theorem timeAt_mem (hW : 0 < plotW) (hleft : padL ≤ x) (hright : x ≤ padL + plotW) :
    axis.start ≤ timeAt axis padL plotW x ∧ timeAt axis padL plotW x ≤ axis.stop := by
  have hspan := span_pos axis
  have hshare : 0 ≤ (x - padL) / plotW := div_nonneg (sub_nonneg.mpr hleft) hW.le
  have hone : (x - padL) / plotW ≤ 1 := (div_le_one hW).mpr (sub_le_iff_le_add'.mpr hright)
  constructor
  · exact le_add_of_nonneg_right (mul_nonneg hshare hspan.le)
  · calc timeAt axis padL plotW x ≤ axis.start + (axis.stop - axis.start) :=
          add_le_add_right (mul_le_of_le_one_left hspan.le hone) _
      _ = axis.stop := add_sub_cancel _ _

end Maps

/-! ## What is under the pointer

Bins are searched by time and drawn by place. The search finds the bin because the two maps are inverse to
each other.
-/

/-- A place lies in the extent of a bin on the axis; the last bin is closed. -/
def Covers (axis : Axis) (bins : List Bin) (padL plotW x : ℚ) (i : ℕ) : Prop :=
  ∃ bin, bins[i]? = some bin ∧ timeX bin.start axis.range padL plotW ≤ x ∧
    (x < timeX bin.stop axis.range padL plotW ∨
      i + 1 = bins.length ∧ x = timeX bin.stop axis.range padL plotW)

/-- A tooltip is that of a bin: it names the ends of the bin, and gives, for each of the series, the amount
of the bin and where its line is at the end of the bin, which is the sum of the bins up to there. -/
structure Shows (format : Format) (axis : Axis) (bins : List Bin) (series : List Series) (i : ℕ) (bin : Bin)
    (tip : Tip) : Prop where
  idx : tip.idx = i
  title : tip.title = format.fullDate bin.start ++ lit " – " ++ format.fullDate bin.stop ++ lit " UTC"
  period : ∀ k item, series[k]? = some item → tip.lines[2 * k]? =
    some ⟨item.label ++ lit " period", format.humanFmt (max 0 (bin.values item.key)), some item.color⟩
  cumulative : ∀ k item, series[k]? = some item → ∃ point : Point,
    ((stacked axis bins).cumulative item.key)[i + 1]? = some point ∧
      point.ts = bin.stop ∧ point.binIdx = i ∧
      point.v = ((bins.take (i + 1)).map fun bin => bin.values item.key).sum ∧
      tip.lines[2 * k + 1]? =
        some ⟨item.label ++ lit " cumulative", format.humanFmt point.v, some item.color⟩

/-- Hit testing inverts drawing. -/
structure HitTest (axis : Axis) (bins : List Bin) (padL plotW : ℚ) : Prop where
  /-- No bin is found outside of the plot. -/
  outside : ∀ x, timeBinIndexAtX bins axis.range padL plotW x = -1 ↔ x < padL ∨ padL + plotW < x
  /-- Inside, the bin that is found is the only one that is drawn there. -/
  inside : ∀ x, padL ≤ x → x ≤ padL + plotW → ∃ i : ℕ,
    timeBinIndexAtX bins axis.range padL plotW x = i ∧
      ∀ j, Covers axis bins padL plotW x j ↔ j = i
  /-- A tooltip is shown exactly inside of the plot. -/
  shown : ∀ format series padT plotH x y,
    (onMouseMove format (stacked axis bins) series axis.range padL plotW padT plotH x y).isSome = true ↔
      (padT ≤ y ∧ y ≤ padT + plotH) ∧ padL ≤ x ∧ x ≤ padL + plotW
  /-- It is that of the bin that is drawn there. -/
  tooltip : ∀ format series padT plotH x y tip,
    onMouseMove format (stacked axis bins) series axis.range padL plotW padT plotH x y = some tip →
      ∃ i bin, Covers axis bins padL plotW x i ∧ bins[i]? = some bin ∧
        Shows format axis bins series i bin tip

section Pointer

variable {axis : Axis} {bins : List Bin} {padL plotW x : ℚ}

/-- Bins are drawn where their times are. -/
theorem covers_iff (h : Tiling.Tiles axis.start axis.stop (bins.map Bin.interval)) (hW : 0 < plotW)
    {i : ℕ} : Covers axis bins padL plotW x i ↔
      Tiling.LiesIn (bins.map Bin.interval) (timeAt axis padL plotW x) i := by
  -- the ends of every bin are times of the range
  have hmem {bin : Bin} (hget : bins[i]? = some bin) :
      (axis.start ≤ bin.start ∧ bin.start ≤ axis.stop) ∧ axis.start ≤ bin.stop ∧ bin.stop ≤ axis.stop := by
    have hin : bin.interval ∈ bins.map Bin.interval := List.mem_map_of_mem (List.mem_of_getElem? hget)
    obtain ⟨hstart, hstop⟩ := h.mem_le hin
    have hlt : bin.start ≤ bin.stop := (h.lt_of_mem hin).le
    exact ⟨⟨hstart, hlt.trans hstop⟩, hstart.trans hlt, hstop⟩
  unfold Covers Tiling.LiesIn
  rw [List.length_map, List.getElem?_map]
  constructor
  · rintro ⟨bin, hget, hle, hlast⟩
    obtain ⟨⟨h1, h2⟩, h3, h4⟩ := hmem hget
    rw [timeX_le_iff axis hW h1 h2] at hle
    rw [lt_timeX_iff axis hW h3 h4, eq_timeX_iff axis hW h3 h4] at hlast
    exact ⟨bin.interval, by rw [hget]; rfl, hle, hlast⟩
  · rintro ⟨p, hget, hle, hlast⟩
    obtain ⟨bin, hbin, rfl⟩ := Option.map_eq_some_iff.mp hget
    obtain ⟨⟨h1, h2⟩, h3, h4⟩ := hmem hbin
    refine ⟨bin, hbin, (timeX_le_iff axis hW h1 h2).mpr hle, ?_⟩
    rw [lt_timeX_iff axis hW h3 h4, eq_timeX_iff axis hW h3 h4]
    exact hlast

/-- The bins of a range are not empty. -/
theorem bins_ne_nil (h : Tiling.Tiles axis.start axis.stop (bins.map Bin.interval)) : bins ≠ [] := by
  rintro rfl
  exact axis.start_lt_stop.ne h

/-- Inside of the plot the bin is found in which the time under the pointer lies. -/
theorem timeBinIndexAtX_eq (h : Tiling.Tiles axis.start axis.stop (bins.map Bin.interval))
    (hW : 0 < plotW) (hleft : padL ≤ x) (hright : x ≤ padL + plotW) {i : ℕ}
    (hi : Tiling.LiesIn (bins.map Bin.interval) (timeAt axis padL plotW x) i) :
    timeBinIndexAtX bins axis.range padL plotW x = i := by
  have hguard : ¬ (bins = [] ∨ plotW ≤ 0 ∨ x < padL ∨ padL + plotW < x) := by
    rintro (hnil | hflat | hbefore | hafter)
    · exact bins_ne_nil h hnil
    · exact absurd hW (not_lt.mpr hflat)
    · exact absurd hleft (not_le.mpr hbefore)
    · exact absurd hright (not_le.mpr hafter)
  have hfind : (bins.zipIdx.findIdx? fun (bin, index) => decide (bin.start ≤ timeAt axis padL plotW x ∧
      (timeAt axis padL plotW x < bin.stop ∨
        index = bins.length - 1 ∧ timeAt axis padL plotW x = bin.stop))) = some i := by
    -- the condition of the search is that the time lies in the bin
    have hlies {j : ℕ} (hj : j < bins.length) : Tiling.LiesIn (bins.map Bin.interval)
        (timeAt axis padL plotW x) j ↔ (bins[j].start ≤ timeAt axis padL plotW x ∧
          (timeAt axis padL plotW x < bins[j].stop ∨
            j = bins.length - 1 ∧ timeAt axis padL plotW x = bins[j].stop)) := by
      have hlast : j + 1 = bins.length ↔ j = bins.length - 1 := by omega
      unfold Tiling.LiesIn
      rw [List.length_map, hlast, List.getElem?_map, List.getElem?_eq_getElem hj]
      simp [Bin.interval]
    have hlt : i < bins.length := by
      obtain ⟨p, hp, -⟩ := hi
      have hlt := (List.getElem?_eq_some_iff.mp hp).1
      rwa [List.length_map] at hlt
    rw [List.findIdx?_eq_some_iff_getElem]
    refine ⟨by rwa [List.length_zipIdx], ?_, fun j hji => ?_⟩
    · rw [List.getElem_zipIdx]
      simpa using (hlies hlt).mp hi
    · -- an earlier bin does not contain the time as well
      have hj : j < bins.length := hji.trans hlt
      rw [List.getElem_zipIdx]
      have hnot : ¬ Tiling.LiesIn (bins.map Bin.interval) (timeAt axis padL plotW x) j :=
        fun hj => hji.ne (h.liesIn_unique hj hi)
      simpa using (not_congr (hlies hj)).mp hnot
  rw [timeBinIndexAtX, if_neg hguard]
  show (match bins.zipIdx.findIdx? fun (bin, index) => decide (bin.start ≤ timeAt axis padL plotW x ∧
      (timeAt axis padL plotW x < bin.stop ∨
        index = bins.length - 1 ∧ timeAt axis padL plotW x = bin.stop)) with
    | some index => (index : ℤ)
    | none => -1) = (i : ℤ)
  rw [hfind]

/-- Outside of the plot there is none. -/
theorem timeBinIndexAtX_eq_neg_one (h : x < padL ∨ padL + plotW < x) :
    timeBinIndexAtX bins axis.range padL plotW x = -1 := by
  have hguard : bins = [] ∨ plotW ≤ 0 ∨ x < padL ∨ padL + plotW < x := Or.inr (Or.inr h)
  exact if_pos hguard

/-- The time under a pointer inside of the plot lies in a bin, and that bin is found. -/
theorem exists_timeBinIndexAtX (h : Tiling.Tiles axis.start axis.stop (bins.map Bin.interval))
    (hW : 0 < plotW) (hleft : padL ≤ x) (hright : x ≤ padL + plotW) :
    ∃ i : ℕ, timeBinIndexAtX bins axis.range padL plotW x = i ∧
      Tiling.LiesIn (bins.map Bin.interval) (timeAt axis padL plotW x) i := by
  have hne : bins.map Bin.interval ≠ [] := fun hnil => bins_ne_nil h (List.map_eq_nil_iff.mp hnil)
  obtain ⟨hge, hle⟩ := timeAt_mem axis hW hleft hright
  obtain ⟨i, hi⟩ := h.exists_liesIn hne hge hle
  exact ⟨i, timeBinIndexAtX_eq h hW hleft hright hi, hi⟩

/-- No bin is found exactly outside of the plot. -/
theorem timeBinIndexAtX_eq_neg_one_iff (h : Tiling.Tiles axis.start axis.stop (bins.map Bin.interval))
    (hW : 0 < plotW) :
    timeBinIndexAtX bins axis.range padL plotW x = -1 ↔ x < padL ∨ padL + plotW < x := by
  refine ⟨fun hnone => ?_, timeBinIndexAtX_eq_neg_one⟩
  by_contra hin
  obtain ⟨hleft, hright⟩ := not_or.mp hin
  obtain ⟨i, hi, -⟩ := exists_timeBinIndexAtX h hW (not_lt.mp hleft) (not_lt.mp hright)
  omega

/-! ## What the tooltip shows

The point of a line that belongs to a bin is one further than the bin, since a line starts with a point
before the first bin.
-/

/-- The tooltip that is built for a bin is that of the bin. -/
theorem shows_buildTooltipLines (format : Format) (series : List Series) {i : ℕ} {bin : Bin}
    (hbin : bins[i]? = some bin) {tip : Tip} (hidx : tip.idx = i)
    (htitle : tip.title = format.fullDate bin.start ++ lit " – " ++ format.fullDate bin.stop ++ lit " UTC")
    (hlines : tip.lines = buildTooltipLines format bin (stacked axis bins).cumulative series i
      (stacked axis bins).totals) : Shows format axis bins series i bin tip := by
  refine ⟨hidx, htitle, fun k item hitem => ?_, fun k item hitem => ?_⟩
  · rw [hlines]
    exact (getElem?_pairs _ _ _ hitem).1
  · -- the first point of a line is at the start of the axis, so the end of a bin is one further
    have hpoint : ((stacked axis bins).cumulative item.key)[i + 1]? = some ⟨bin.stop,
        0 + ((bins.take (i + 1)).map fun bin => bin.values item.key).sum, 0 + i⟩ := by
      have hpoints := getElem?_pointsFrom item.key 0 0 bins i
      rwa [hbin] at hpoints
    refine ⟨_, hpoint, rfl, zero_add _, zero_add _, ?_⟩
    rw [hlines, buildTooltipLines, (getElem?_pairs _ _ _ hitem).2, hpoint]
    rfl

section Mouse

variable (format : Format) (series : List Series) {padT plotH y : ℚ}

/-- Over the plot, the tooltip of the bin under the pointer is shown. -/
theorem exists_onMouseMove (h : Tiling.Tiles axis.start axis.stop (bins.map Bin.interval))
    (hW : 0 < plotW) (hy : padT ≤ y ∧ y ≤ padT + plotH) (hx : padL ≤ x ∧ x ≤ padL + plotW) :
    ∃ tip i bin, onMouseMove format (stacked axis bins) series axis.range padL plotW padT plotH x y =
        some tip ∧ Covers axis bins padL plotW x i ∧ bins[i]? = some bin ∧
      Shows format axis bins series i bin tip := by
  obtain ⟨i, hi, hlies⟩ := exists_timeBinIndexAtX h hW hx.1 hx.2
  have hcovers : Covers axis bins padL plotW x i := (covers_iff h hW).mpr hlies
  obtain ⟨bin, hbin, -⟩ := id hcovers
  have hinside : ¬ (y < padT ∨ padT + plotH < y) := not_or.mpr ⟨not_lt.mpr hy.1, not_lt.mpr hy.2⟩
  have hidx : timeBinIndexAtX (stacked axis bins).bins axis.range padL plotW x = Int.ofNat i := hi
  have hget : (stacked axis bins).bins[i]? = some bin := hbin
  unfold onMouseMove
  rw [if_neg hinside, hidx]
  dsimp only
  rw [hget]
  exact ⟨_, i, bin, rfl, hcovers, hbin, shows_buildTooltipLines format series hbin rfl rfl rfl⟩

/-- Elsewhere none is. -/
theorem onMouseMove_eq_none (hout : ¬ ((padT ≤ y ∧ y ≤ padT + plotH) ∧ padL ≤ x ∧ x ≤ padL + plotW)) :
    onMouseMove format (stacked axis bins) series axis.range padL plotW padT plotH x y = none := by
  unfold onMouseMove
  split_ifs with hy
  · rfl
  · have hx : x < padL ∨ padL + plotW < x := by
      by_contra hx
      obtain ⟨hleft, hright⟩ := not_or.mp hx
      obtain ⟨htop, hbottom⟩ := not_or.mp hy
      exact hout ⟨⟨not_lt.mp htop, not_lt.mp hbottom⟩, not_lt.mp hleft, not_lt.mp hright⟩
    rw [show timeBinIndexAtX (stacked axis bins).bins axis.range padL plotW x = -1 from
      timeBinIndexAtX_eq_neg_one hx]
    rfl

end Mouse

/-- Hit testing inverts drawing, over any bins that partition the range, and the tooltip and the points it
shows are those of the bin that is drawn under the pointer. -/
theorem hitTest_of_tiles (axis : Axis) (bins : List Bin) (padL plotW : ℚ) (hW : 0 < plotW)
    (h : Tiling.Tiles axis.start axis.stop (bins.map Bin.interval)) : HitTest axis bins padL plotW where
  outside _ := timeBinIndexAtX_eq_neg_one_iff h hW
  inside x hleft hright := by
    obtain ⟨i, hi, hlies⟩ := exists_timeBinIndexAtX h hW hleft hright
    refine ⟨i, hi, fun j => ?_⟩
    rw [covers_iff h hW]
    exact ⟨fun hj => h.liesIn_unique hj hlies, fun hj => hj ▸ hlies⟩
  shown format series padT plotH x y := by
    constructor
    · intro hsome
      by_contra hout
      rw [onMouseMove_eq_none format series hout] at hsome
      cases hsome
    · rintro ⟨hy, hx⟩
      obtain ⟨tip, -, -, htip, -⟩ := exists_onMouseMove format series h hW hy hx
      rw [htip]
      rfl
  tooltip format series padT plotH x y tip htip := by
    by_cases hin : (padT ≤ y ∧ y ≤ padT + plotH) ∧ padL ≤ x ∧ x ≤ padL + plotW
    · obtain ⟨tip', i, bin, htip', hcovers, hbin, hshows⟩ :=
        exists_onMouseMove format series h hW hin.1 hin.2
      obtain rfl : tip' = tip := Option.some.inj (htip'.symm.trans htip)
      exact ⟨i, bin, hcovers, hbin, hshows⟩
    · cases (onMouseMove_eq_none format series hin).symm.trans htip

end Pointer

/-- The four bins of four hundred milliseconds, with some issues and pull requests in them. -/
def countedBins : List Bin :=
  [⟨0, 120, fun key => if key = lit "issues" then 2 else 1, 3⟩,
    ⟨120, 240, fun key => if key = lit "issues" then 0 else 4, 4⟩,
    ⟨240, 360, fun key => if key = lit "issues" then 3 else 0, 3⟩,
    ⟨360, 400, fun key => if key = lit "issues" then 5 else 6, 11⟩]

/-- A format that tells numbers below six from the others. -/
def coarse : Format :=
  ⟨fun v => if v < 6 then lit "few" else lit "many", fun _ => [], fun _ => [], fun _ => [], []⟩

/-- The edges of a plot of the bins, and its tooltip over the third of them: three issues, five so far. -/
theorem fourHundred_hitTest : HitTest fourHundred countedBins 60 400 ∧
    [59, 60, 299, 300, 459, 460, 461].map (timeBinIndexAtX countedBins fourHundred.range 60 400) =
      [-1, 0, 1, 2, 3, 3, -1] ∧
    ∃ tip, onMouseMove coarse (stacked fourHundred countedBins)
        [⟨lit "issues", lit "Issues", lit "red"⟩, ⟨lit "pulls", lit "Pulls", lit "blue"⟩]
        fourHundred.range 60 400 28 200 300 100 = some tip ∧ tip.idx = 2 ∧
      tip.lines[1]? = some ⟨lit "Issues cumulative", lit "few", some (lit "red")⟩ := by
  have hhit : HitTest fourHundred countedBins 60 400 :=
    hitTest_of_tiles fourHundred countedBins 60 400 (by norm_num)
      ⟨rfl, by norm_num [Bin.interval], rfl, by norm_num [Bin.interval], rfl, by norm_num [Bin.interval], rfl,
        by norm_num [Bin.interval], rfl⟩
  refine ⟨hhit, by decide +kernel, ?_⟩
  obtain ⟨tip, htip⟩ := Option.isSome_iff_exists.mp ((hhit.shown coarse
    [⟨lit "issues", lit "Issues", lit "red"⟩, ⟨lit "pulls", lit "Pulls", lit "blue"⟩] 28 200 300 100).mpr
    (by norm_num))
  obtain ⟨i, bin, hcovers, -, hshows⟩ := hhit.tooltip _ _ _ _ _ _ _ htip
  obtain ⟨i', hi', hunique⟩ := hhit.inside 300 (by norm_num) (by norm_num)
  obtain rfl := (hunique i).mp hcovers
  obtain rfl : i = 2 := Int.ofNat.inj (hi'.symm.trans (by decide +kernel))
  obtain ⟨point, -, -, -, hsum, hline⟩ := hshows.cumulative 0 _ rfl
  have hfive : point.v = 5 := by
    rw [hsum]
    norm_num [countedBins]
  rw [hfive] at hline
  exact ⟨tip, htip, hshows.idx, hline.trans (by norm_num [coarse]; rfl)⟩

end Ghpulse.Web
