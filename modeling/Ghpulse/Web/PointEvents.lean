import Ghpulse.Web.Binning
import Mathlib.Algebra.Order.BigOperators.Group.List

/-!
# What a chart makes of point events

`amountOf` says what an event means for a series. The bins add up these amounts over the events that lie in
them, in whatever order the events come, unless a conversion throws or the series is called `__proto__`.

Reference: `src/dashboard-charts.jsx`.
-/

open Python Js

namespace Ghpulse.Web

variable {js : Runtime}

/-! ## Conversions

Which of the values of an event are converted. One conversion that throws makes the whole chart throw, so
it is asked first which of them do.
-/

/-- The timestamp of an event, if it is finite. -/
def timestampOf (js : Runtime) (event : Value) : Option ℚ :=
  match eventTimestamp js event with
  | .ok (.finite ts) => some ts
  | _ => none

/-- The amount of a value. -/
def amountValue (js : Runtime) (value : Value) (fallback : ℚ) : ℚ :=
  (eventAmount js value fallback).toOption.getD 0

/-- What an event adds to the series of a key. -/
def amountOf (js : Runtime) (event : Value) (key : Str) : ℚ :=
  match keyed event with
  | .undefined | .null => if event.hasOwn key then amountValue js (event.get key) 0 else 0
  | .string k =>
    if k = key then amountValue js (orElse (event.get (lit "value")) (event.get (lit "count"))) 1 else 0
  | _ => 0

/-- The values that are converted to the amounts of an event. -/
def amountsRead (series : List Series) (event : Value) : List Value :=
  match keyed event with
  | .undefined | .null => series.map fun item => event.get item.key
  | .string key =>
    if key ∈ series.map Series.key then [orElse (event.get (lit "value")) (event.get (lit "count"))]
    else []
  | _ => []

/-- Whether an event lies in an interval. -/
def LiesWithin (js : Runtime) (start stop : ℚ) (event : Value) : Prop :=
  ∃ ts ∈ timestampOf js event, start ≤ ts ∧ ts < stop

instance (start stop : ℚ) (event : Value) : Decidable (LiesWithin js start stop event) :=
  match h : timestampOf js event with
  | none => .isFalse fun ⟨ts, hts, _⟩ => by
    rw [h] at hts
    cases hts
  | some ts => decidable_of_iff (start ≤ ts ∧ ts < stop)
    ⟨fun hin => ⟨ts, h, hin⟩, fun ⟨ts', hts', hin⟩ => by
      rw [h] at hts'
      cases hts'
      exact hin⟩

/-- No conversion of an event throws: not that of its timestamp, and if it lies in the range not those of
its amounts. -/
def Converts (js : Runtime) (series : List Series) (start stop : ℚ) (event : Value) : Prop :=
  (rawTimestamp event).convertible = true ∧
    (LiesWithin js start stop event → ∀ value ∈ amountsRead series event, value.convertible = true)

/-- `Number` of a value that converts. -/
theorem number_eq {value : Value} (h : value.convertible = true) :
    number js value = .ok (toNumber js value) := if_pos h

/-- `Number` of one that does not throws. -/
theorem number_throws {value : Value} (h : value.convertible = false) :
    number js value = .error .engine := if_neg (by simp [h])

/-- An amount can be read exactly when the value converts. -/
theorem eventAmount_returns (js : Runtime) (value : Value) (fallback : ℚ) :
    (∃ q, eventAmount js value fallback = .ok q) ↔ value.convertible = true := by
  unfold eventAmount
  split
  · exact iff_of_true ⟨fallback, rfl⟩ rfl
  · exact iff_of_true ⟨fallback, rfl⟩ rfl
  · exact iff_of_true ⟨fallback, rfl⟩ rfl
  · cases hc : value.convertible with
    | true =>
      rw [number_eq hc]
      cases toNumber js value <;> simp [bind, Except.bind, pure, Except.pure]
    | false =>
      rw [number_throws hc]
      simp [bind, Except.bind]

/-- An amount is not negative. -/
theorem eventAmount_nonneg {value : Value} {fallback q : ℚ} (hfallback : 0 ≤ fallback)
    (h : eventAmount js value fallback = .ok q) : 0 ≤ q := by
  unfold eventAmount at h
  split at h
  · cases h
    exact hfallback
  · cases h
    exact hfallback
  · cases h
    exact hfallback
  · obtain ⟨n, -, h⟩ := bind_eq_ok.mp h
    split at h
    · cases h
      exact le_max_left _ _
    · cases h
      exact le_rfl

/-- Nor is the amount of a value. -/
theorem amountValue_nonneg (js : Runtime) (value : Value) {fallback : ℚ} (h : 0 ≤ fallback) :
    0 ≤ amountValue js value fallback := by
  unfold amountValue
  cases hread : eventAmount js value fallback with
  | error e => exact le_rfl
  | ok q => exact eventAmount_nonneg h hread

/-- Nor is what an event adds to a series. -/
theorem amountOf_nonneg (js : Runtime) (event : Value) (key : Str) : 0 ≤ amountOf js event key := by
  unfold amountOf
  split
  · split_ifs
    · exact amountValue_nonneg js _ le_rfl
    · exact le_rfl
  · split_ifs
    · exact amountValue_nonneg js _ le_rfl
    · exact le_rfl
  · split_ifs
    · exact amountValue_nonneg js _ zero_le_one
    · exact le_rfl
  · exact le_rfl

/-- A timestamp can be read exactly when its value converts. -/
theorem eventTimestamp_returns (js : Runtime) (event : Value) :
    (∃ n, eventTimestamp js event = .ok n) ↔ (rawTimestamp event).convertible = true := by
  unfold eventTimestamp
  by_cases htruthy : event.truthy = false
  · rw [if_pos htruthy]
    refine iff_of_true ⟨.nan, rfl⟩ ?_
    -- a value that counts as false has no fields
    cases event with
    | array items => cases htruthy
    | object fields => cases htruthy
    | undefined | null | bool b | number n | string s => rfl
  · rw [if_neg htruthy]
    split
    · rename_i hraw
      rw [hraw]
      exact iff_of_true ⟨.nan, rfl⟩ rfl
    · rename_i hraw
      rw [hraw]
      exact iff_of_true ⟨.nan, rfl⟩ rfl
    · rename_i n hraw
      rw [hraw]
      exact iff_of_true ⟨n, rfl⟩ rfl
    · cases hc : (rawTimestamp event).convertible with
      | true =>
        rw [number_eq hc]
        cases toNumber js (rawTimestamp event) <;> simp [bind, Except.bind, pure, Except.pure]
      | false =>
        rw [number_throws hc]
        simp [bind, Except.bind]

/-! ## The amounts of an event

An event names its series, or counts for all series that it has a field of. In the latter case the loop
over the series is followed turn by turn.
-/

/-- What the chart records of an event: everything, but for a series called `__proto__`. -/
def recordedAmount (js : Runtime) (series : List Series) (event : Value) (key : Str) : ℚ :=
  if key ∈ series.map Series.key ∧ key ≠ lit "__proto__" then amountOf js event key else 0

/-- An assignment adds to its own key, and to none that is called `__proto__`. -/
theorem amountAt_assign (key : Str) (amount : ℚ) (values : List (Str × ℚ)) (k : Str) :
    amountAt (assign key amount values) k =
      amountAt values k + if key = k ∧ key ≠ lit "__proto__" then amount else 0 := by
  unfold assign amountAt
  by_cases hproto : key = lit "__proto__"
  · rw [if_pos hproto, if_neg fun h => h.2 hproto, add_zero]
  · rw [if_neg hproto, List.map_append, List.sum_append, List.map_singleton, List.sum_singleton]
    simp only [hproto, ne_eq, not_false_eq_true, and_true]

/-- The keys of assigned amounts are series, and the amounts are not negative. -/
def Proper (series : List Series) (values : List (Str × ℚ)) : Prop :=
  ∀ p ∈ values, p.1 ∈ series.map Series.key ∧ 0 ≤ p.2

/-- An assignment to the key of a series keeps the record proper. -/
theorem Proper.assign {series : List Series} {values : List (Str × ℚ)} (h : Proper series values)
    {key : Str} (hkey : key ∈ series.map Series.key) {amount : ℚ} (hamount : 0 ≤ amount) :
    Proper series (assign key amount values) := by
  unfold Web.assign
  split_ifs
  · exact h
  · intro p hp
    rcases List.mem_append.mp hp with hp | hp
    · exact h p hp
    · rw [List.mem_singleton.mp hp]
      exact ⟨hkey, hamount⟩

section Values

variable {series : List Series} {event : Value}

/-! ## The loop over the series

One turn at a time: when it throws, what it assigns, and that the record stays proper. The loop over all
series repeats the three.
-/

/-- One turn of the loop over the series. -/
def assignOwn (js : Runtime) (event : Value) (values : List (Str × ℚ)) (item : Series) :
    Except Thrown (List (Str × ℚ)) :=
  if event.hasOwn item.key then do
    let amount ← eventAmount js (event.get item.key) 0
    return assign item.key amount values
  else return values

/-- The amount of a field that an event may not have. -/
def ownAmount (js : Runtime) (event : Value) (key : Str) : ℚ :=
  if event.hasOwn key then amountValue js (event.get key) 0 else 0

/-- A field that an event does not have is undefined. -/
theorem get_of_not_hasOwn {key : Str} (h : event.hasOwn key = false) : event.get key = .undefined := by
  unfold Value.get
  unfold Value.hasOwn at h
  generalize event.fields = fields at *
  induction fields with
  | nil => rfl
  | cons p rest ih =>
    -- none of the keys is the one that is read
    obtain ⟨k, v⟩ := p
    rw [List.any_cons, Bool.or_eq_false_iff] at h
    rw [field, if_neg (of_decide_eq_false h.1)]
    exact ih h.2

/-- One turn returns exactly when the field converts. -/
theorem assignOwn_returns (js : Runtime) (event : Value) (values : List (Str × ℚ)) (item : Series) :
    (∃ values', assignOwn js event values item = .ok values') ↔
      (event.get item.key).convertible = true := by
  unfold assignOwn
  cases howned : event.hasOwn item.key with
  | false =>
    rw [get_of_not_hasOwn howned]
    exact iff_of_true ⟨values, rfl⟩ rfl
  | true =>
    rw [if_pos rfl, ← eventAmount_returns js _ 0]
    constructor
    · rintro ⟨values', h⟩
      obtain ⟨amount, hamount, -⟩ := bind_eq_ok.mp h
      exact ⟨amount, hamount⟩
    · rintro ⟨amount, hamount⟩
      rw [hamount]
      exact ⟨_, rfl⟩

/-- What one turn assigns. -/
theorem assignOwn_spec {values values' : List (Str × ℚ)} {item : Series}
    (h : assignOwn js event values item = .ok values') (key : Str) :
    amountAt values' key = amountAt values key +
      if item.key = key ∧ item.key ≠ lit "__proto__" then ownAmount js event item.key else 0 := by
  unfold assignOwn at h
  unfold ownAmount
  cases howned : event.hasOwn item.key with
  | false =>
    rw [howned] at h
    cases h
    simp
  | true =>
    rw [howned, if_pos rfl] at h
    obtain ⟨amount, hamount, h⟩ := bind_eq_ok.mp h
    cases h
    rw [amountAt_assign, if_pos rfl, amountValue, hamount]
    rfl

/-- So does that of an own property. -/
theorem assignOwn_proper {series : List Series} {values values' : List (Str × ℚ)} {item : Series}
    (h : assignOwn js event values item = .ok values') (hitem : item ∈ series)
    (hproper : Proper series values) : Proper series values' := by
  unfold assignOwn at h
  split_ifs at h
  · obtain ⟨amount, hamount, h⟩ := bind_eq_ok.mp h
    cases h
    exact hproper.assign (List.mem_map_of_mem hitem) (eventAmount_nonneg le_rfl hamount)
  · cases h
    exact hproper

/-- The loop over the series returns exactly when all their fields convert. -/
theorem foldlM_assignOwn_returns (values : List (Str × ℚ)) :
    (∃ values', series.foldlM (assignOwn js event) values = .ok values') ↔
      ∀ item ∈ series, (event.get item.key).convertible = true := by
  induction series generalizing values with
  | nil => exact iff_of_true ⟨values, rfl⟩ (by simp)
  | cons item rest ih =>
    rw [List.forall_mem_cons, ← assignOwn_returns js event values item, List.foldlM_cons]
    constructor
    · rintro ⟨values', h⟩
      obtain ⟨next, hnext, hrest⟩ := bind_eq_ok.mp h
      exact ⟨⟨next, hnext⟩, (ih next).mp ⟨values', hrest⟩⟩
    · rintro ⟨⟨next, hnext⟩, hrest⟩
      obtain ⟨values', h⟩ := (ih next).mpr hrest
      exact ⟨values', bind_eq_ok.mpr ⟨next, hnext, h⟩⟩

/-- What the loop over some series assigns. -/
theorem foldlM_assignOwn_spec {values values' : List (Str × ℚ)}
    (hnodup : (series.map Series.key).Nodup)
    (h : series.foldlM (assignOwn js event) values = .ok values') (key : Str) :
    amountAt values' key = amountAt values key +
      if key ∈ series.map Series.key ∧ key ≠ lit "__proto__" then ownAmount js event key else 0 := by
  induction series generalizing values with
  | nil =>
    cases h
    simp
  | cons item rest ih =>
    rw [List.map_cons] at hnodup ⊢
    obtain ⟨hitem, hrest⟩ := List.nodup_cons.mp hnodup
    rw [List.foldlM_cons] at h
    obtain ⟨next, hnext, h⟩ := bind_eq_ok.mp h
    rw [ih hrest h, assignOwn_spec hnext, add_assoc]
    congr 1
    by_cases hkey : key = item.key
    -- keys are distinct, so no later turn assigns to this one
    · subst hkey
      have hlater : ¬ (item.key ∈ rest.map Series.key ∧ item.key ≠ lit "__proto__") :=
        fun hin => hitem hin.1
      rw [if_neg hlater, add_zero]
      simp only [true_and, List.mem_cons, true_or]
    · have hother : ¬ (item.key = key ∧ item.key ≠ lit "__proto__") := fun hin => hkey hin.1.symm
      rw [if_neg hother, zero_add]
      simp only [List.mem_cons, hkey, false_or]

/-- And those of all series. -/
theorem foldlM_assignOwn_proper {all : List Series} {values values' : List (Str × ℚ)}
    (hsub : series ⊆ all) (h : series.foldlM (assignOwn js event) values = .ok values')
    (hproper : Proper all values) : Proper all values' := by
  induction series generalizing values with
  | nil =>
    cases h
    exact hproper
  | cons item rest ih =>
    rw [List.foldlM_cons] at h
    obtain ⟨next, hnext, h⟩ := bind_eq_ok.mp h
    obtain ⟨hitem, hrest⟩ := List.cons_subset.mp hsub
    exact ih hrest h (assignOwn_proper hnext hitem hproper)

/-- The amounts of an event can be read exactly when all their values convert. -/
theorem eventValues_returns (js : Runtime) (series : List Series) (event : Value) :
    (∃ values, eventValues js series event = .ok values) ↔
      ∀ value ∈ amountsRead series event, value.convertible = true := by
  have hloop : (∃ values, series.foldlM (assignOwn js event) [] = .ok values) ↔
      ∀ value ∈ series.map fun item => event.get item.key, value.convertible = true := by
    rw [foldlM_assignOwn_returns, List.forall_mem_map]
  have hnone : (∃ values, (Except.ok [] : Except Thrown (List (Str × ℚ))) = .ok values) ↔
      ∀ value ∈ ([] : List Value), value.convertible = true := iff_of_true ⟨[], rfl⟩ (by simp)
  unfold eventValues amountsRead
  cases keyed event with
  | undefined | null => exact hloop
  | string key =>
    dsimp only
    split_ifs
    · rw [List.forall_mem_singleton, ← eventAmount_returns js _ 1]
      constructor
      · rintro ⟨values, h⟩
        obtain ⟨amount, hamount, -⟩ := bind_eq_ok.mp h
        exact ⟨amount, hamount⟩
      · rintro ⟨amount, hamount⟩
        rw [hamount]
        exact ⟨_, rfl⟩
    · exact hnone
  | bool b | number n | array items | object fields => exact hnone

/-- What is recorded of an event. -/
theorem eventValues_spec (hnodup : (series.map Series.key).Nodup) {values : List (Str × ℚ)}
    (h : eventValues js series event = .ok values) :
    Proper series values ∧ ∀ key, amountAt values key = recordedAmount js series event key := by
  have hnil : Proper series [] := by simp [Proper]
  have hloop (hown : ∀ key, amountOf js event key = ownAmount js event key)
      (h : series.foldlM (assignOwn js event) [] = .ok values) :
      Proper series values ∧ ∀ key, amountAt values key = recordedAmount js series event key := by
    refine ⟨foldlM_assignOwn_proper (List.Subset.refl series) h hnil, fun key => ?_⟩
    rw [foldlM_assignOwn_spec hnodup h, recordedAmount, hown]
    exact zero_add _
  have hnone (hnothing : ∀ key, key ∈ series.map Series.key → amountOf js event key = 0)
      (h : (Except.ok [] : Except Thrown (List (Str × ℚ))) = .ok values) :
      Proper series values ∧ ∀ key, amountAt values key = recordedAmount js series event key := by
    cases h
    refine ⟨hnil, fun key => ?_⟩
    rw [recordedAmount]
    split_ifs with hkey
    · exact (hnothing key hkey.1).symm
    · rfl
  unfold eventValues at h
  cases hkeyed : keyed event with
  | undefined | null =>
    rw [hkeyed] at h
    exact hloop (fun key => by rw [amountOf, hkeyed]; rfl) h
  | string k =>
    rw [hkeyed] at h
    dsimp only at h
    split_ifs at h with hk
    · obtain ⟨amount, hamount, h⟩ := bind_eq_ok.mp h
      cases h
      refine ⟨hnil.assign hk (eventAmount_nonneg zero_le_one hamount), fun key => ?_⟩
      rw [amountAt_assign, recordedAmount, amountOf, hkeyed]
      dsimp only
      rw [amountValue, hamount]
      by_cases hkey : k = key
      · subst hkey
        simp [hk, amountAt, Except.toOption]
      · simp [hkey, amountAt]
    · refine hnone (fun key hkey => ?_) h
      have hne : k ≠ key := fun heq => hk (heq ▸ hkey)
      rw [amountOf, hkeyed]
      exact if_neg hne
  | bool b | number n | array items | object fields =>
    rw [hkeyed] at h
    exact hnone (fun key _ => by rw [amountOf, hkeyed]) h

end Values

/-! ## The events that are recorded

What the sorted list says about the events. Sorting changes no sum, and an event that is skipped adds to
none.
-/

section Events

variable {series : List Series} {axis : Axis} {event : Value}

/-- An event with a finite timestamp lies in the range when the timestamp does. -/
theorem liesWithin_iff {ts start stop : ℚ} (h : eventTimestamp js event = .ok (.finite ts)) :
    LiesWithin js start stop event ↔ start ≤ ts ∧ ts < stop := by
  have htimestamp : timestampOf js event = some ts := by rw [timestampOf, h]
  constructor
  · rintro ⟨ts', hts', hin⟩
    rw [htimestamp] at hts'
    cases hts'
    exact hin
  · intro hin
    exact ⟨ts, htimestamp, hin⟩

/-- An event with any other timestamp does not. -/
theorem not_liesWithin {n : Number} {start stop : ℚ} (h : eventTimestamp js event = .ok n)
    (hn : ∀ q, n ≠ .finite q) : ¬ LiesWithin js start stop event := by
  rintro ⟨ts, hts, -⟩
  rw [timestampOf, h] at hts
  split at hts
  · rename_i heq
    cases heq
    exact hn _ rfl
  · cases hts

/-- An event can be read exactly when its conversions do not throw. -/
theorem seriesEvent_returns (index : ℕ) :
    (∃ o, seriesEvent js series axis index event = .ok o) ↔
      Converts js series axis.start axis.stop event := by
  unfold seriesEvent Converts
  rw [← eventTimestamp_returns js, ← eventValues_returns js]
  cases htimestamp : eventTimestamp js event with
  | error e => simp [bind, Except.bind]
  | ok n =>
    cases n with
    | nan | posInf | negInf =>
      refine iff_of_true ⟨none, rfl⟩ ⟨⟨_, rfl⟩, fun hin => ?_⟩
      exact absurd hin (not_liesWithin htimestamp (by simp))
    | finite ts =>
      rw [liesWithin_iff htimestamp]
      simp only [bind, Except.bind]
      by_cases hout : ts < axis.start ∨ axis.stop ≤ ts
      · rw [if_pos hout]
        refine iff_of_true ⟨none, rfl⟩ ⟨⟨_, rfl⟩, fun hin => ?_⟩
        rcases hout with hlt | hge
        · exact absurd hin.1 (not_le.mpr hlt)
        · exact absurd hin.2 (not_lt.mpr hge)
      · obtain ⟨hstart, hstop⟩ := not_or.mp hout
        rw [if_neg hout]
        cases eventValues js series event with
        | error e => simp [not_lt.mp hstart, not_le.mp hstop]
        | ok values => exact iff_of_true ⟨_, rfl⟩ ⟨⟨_, rfl⟩, fun _ => ⟨values, rfl⟩⟩

/-- What is recorded of an event that can be read. -/
theorem seriesEvent_spec (hnodup : (series.map Series.key).Nodup) {index : ℕ} {o : Option SeriesEvent}
    (h : seriesEvent js series axis index event = .ok o) :
    (∀ e ∈ o, axis.start ≤ e.ts ∧ Proper series e.values) ∧
      ∀ start stop key, axis.start ≤ start → stop ≤ axis.stop →
        (o.elim 0 fun e => if start ≤ e.ts ∧ e.ts < stop then e.amount key else 0) =
          if LiesWithin js start stop event then recordedAmount js series event key else 0 := by
  obtain ⟨n, htimestamp, h⟩ := bind_eq_ok.mp h
  have hout (h : o = none) (hnot : ∀ start stop key, axis.start ≤ start → stop ≤ axis.stop →
      LiesWithin js start stop event → recordedAmount js series event key = 0) :
      (∀ e ∈ o, axis.start ≤ e.ts ∧ Proper series e.values) ∧
        ∀ start stop key, axis.start ≤ start → stop ≤ axis.stop →
          (o.elim 0 fun e => if start ≤ e.ts ∧ e.ts < stop then e.amount key else 0) =
            if LiesWithin js start stop event then recordedAmount js series event key else 0 := by
    subst h
    refine ⟨by simp, fun start stop key hstart hstop => ?_⟩
    split_ifs with hin
    · exact (hnot start stop key hstart hstop hin).symm
    · rfl
  cases n with
  | nan | posInf | negInf =>
    cases h
    exact hout rfl fun start stop key _ _ hin => absurd hin (not_liesWithin htimestamp (by simp))
  | finite ts =>
    dsimp only at h
    split_ifs at h with hoff
    · cases h
      refine hout rfl fun start stop key hstart hstop hin => ?_
      obtain ⟨hge, hlt⟩ := (liesWithin_iff htimestamp).mp hin
      rcases hoff with hbefore | hafter
      · exact absurd (hstart.trans hge) (not_le.mpr hbefore)
      · exact absurd (hlt.trans_le hstop) (not_lt.mpr hafter)
    · obtain ⟨values, hvalues, h⟩ := bind_eq_ok.mp h
      obtain ⟨hproper, hamount⟩ := eventValues_spec hnodup hvalues
      by_cases hempty : values = []
      · rw [if_pos hempty] at h
        cases h
        refine hout rfl fun start stop key _ _ _ => ?_
        rw [← hamount key, hempty]
        rfl
      · rw [if_neg hempty] at h
        cases h
        constructor
        · intro e he
          cases he
          exact ⟨not_lt.mp (not_or.mp hoff).1, hproper⟩
        · intro start stop key _ _
          simp only [Option.elim_some, liesWithin_iff htimestamp, SeriesEvent.amount, hamount]

/-- The order of the recorded events is that of their timestamps. -/
theorem pairwise_mergeSort_before (events : List SeriesEvent) :
    (events.mergeSort SeriesEvent.before).Pairwise fun e e' => e.ts ≤ e'.ts := by
  have htrans (a b c : SeriesEvent) (hab : a.before b) (hbc : b.before c) : a.before c := by
    have hab := of_decide_eq_true hab
    have hbc := of_decide_eq_true hbc
    apply decide_eq_true
    rcases hab with hab | ⟨hab, hindex⟩
    · rcases hbc with hbc | ⟨hbc, -⟩
      · exact Or.inl (hab.trans hbc)
      · exact Or.inl (hab.trans_eq hbc)
    · rcases hbc with hbc | ⟨hbc, hindex'⟩
      · exact Or.inl (hab.trans_lt hbc)
      · exact Or.inr ⟨hab.trans hbc, hindex.trans hindex'⟩
  have htotal (a b : SeriesEvent) : (a.before b || b.before a) = true := by
    rw [Bool.or_eq_true, SeriesEvent.before, SeriesEvent.before, decide_eq_true_iff, decide_eq_true_iff]
    rcases lt_trichotomy a.ts b.ts with hlt | heq | hgt
    · exact Or.inl (Or.inl hlt)
    · rcases le_total a.index b.index with hle | hge
      · exact Or.inl (Or.inr ⟨heq, hle⟩)
      · exact Or.inr (Or.inr ⟨heq.symm, hge⟩)
    · exact Or.inr (Or.inl hgt)
  apply (List.pairwise_mergeSort htrans htotal events).imp
  intro a b hab
  rcases of_decide_eq_true hab with hlt | ⟨heq, -⟩
  · exact hlt.le
  · exact heq.le

/-- The events are normalized exactly when none of their conversions throws. -/
theorem normalizedSeriesEvents_returns {events : List Value} :
    (∃ normalized, normalizedSeriesEvents js events series axis = .ok normalized) ↔
      ∀ event ∈ events, Converts js series axis.start axis.stop event := by
  have hturns : (∃ os, (events.zipIdx.mapM fun p => seriesEvent js series axis p.2 p.1) = .ok os) ↔
      ∀ event ∈ events, Converts js series axis.start axis.stop event := by
    rw [mapM_returns]
    constructor
    · intro h event hevent
      obtain ⟨i, hi, rfl⟩ := List.getElem_of_mem hevent
      have hmem : (events[i], i) ∈ events.zipIdx := by
        rw [List.mk_mem_zipIdx_iff_getElem?]
        exact List.getElem?_eq_getElem hi
      exact (seriesEvent_returns i).mp (h _ hmem)
    · rintro h ⟨event, index⟩ hmem
      exact (seriesEvent_returns index).mpr (h event (List.fst_mem_of_mem_zipIdx hmem))
  rw [← hturns, normalizedSeriesEvents]
  constructor
  · rintro ⟨normalized, h⟩
    obtain ⟨os, hos, -⟩ := bind_eq_ok.mp h
    exact ⟨os, hos⟩
  · rintro ⟨os, hos⟩
    exact ⟨_, bind_eq_ok.mpr ⟨os, hos, rfl⟩⟩

/-- The sum over the events that lie in an interval. -/
def recordedSum (js : Runtime) (series : List Series) (events : List Value) (start stop : ℚ)
    (key : Str) : ℚ :=
  (events.map fun event =>
    if LiesWithin js start stop event then recordedAmount js series event key else 0).sum

/-- The sum over the events of a list with gaps. -/
theorem sum_within_reduceOption (os : List (Option SeriesEvent)) (p : ℚ × ℚ) (key : Str) :
    ((within os.reduceOption p).map fun e => e.amount key).sum =
      (os.map fun o => o.elim 0 fun e => if p.1 ≤ e.ts ∧ e.ts < p.2 then e.amount key else 0).sum := by
  induction os with
  | nil => rfl
  | cons o os ih =>
    cases o with
    | none =>
      rw [List.reduceOption_cons_of_none, ih]
      exact (zero_add _).symm
    | some e =>
      rw [List.reduceOption_cons_of_some, List.map_cons, List.sum_cons, ← ih, within, List.filter_cons]
      by_cases hin : p.1 ≤ e.ts ∧ e.ts < p.2
      · simp [hin, within]
      · simp [hin, within]

/-- What the normalized events say. -/
theorem normalizedSeriesEvents_spec (hnodup : (series.map Series.key).Nodup) {events : List Value}
    {normalized : List SeriesEvent} (h : normalizedSeriesEvents js events series axis = .ok normalized) :
    (normalized.Pairwise fun e e' => e.ts ≤ e'.ts) ∧
      (∀ e ∈ normalized, axis.start ≤ e.ts ∧ Proper series e.values) ∧
      ∀ p key, axis.start ≤ p.1 → p.2 ≤ axis.stop →
        ((within normalized p).map fun e => e.amount key).sum =
          recordedSum js series events p.1 p.2 key := by
  obtain ⟨os, hos, h⟩ := bind_eq_ok.mp h
  cases h
  have hturns := mapM_eq_ok_iff.mp hos
  have hperm := List.mergeSort_perm os.reduceOption SeriesEvent.before
  refine ⟨pairwise_mergeSort_before _, fun e he => ?_, fun p key hstart hstop => ?_⟩
  · have hsome : some e ∈ os := List.reduceOption_mem_iff.mp (hperm.subset he)
    obtain ⟨i, hi, hget⟩ := List.getElem_of_mem hsome
    have hlt : i < events.zipIdx.length := hturns.length_eq ▸ hi
    have hread := (List.forall₂_iff_get.mp hturns).2 i hlt hi
    exact (seriesEvent_spec hnodup hread).1 e hget
  · -- the sum over the sorted events is one over the events as they come
    calc ((within (os.reduceOption.mergeSort SeriesEvent.before) p).map fun e => e.amount key).sum
        = ((within os.reduceOption p).map fun e => e.amount key).sum :=
          ((hperm.filter _).map _).sum_eq
      _ = (os.map fun o => o.elim 0 fun e => if p.1 ≤ e.ts ∧ e.ts < p.2 then e.amount key else 0).sum := by
          exact sum_within_reduceOption os p key
      _ = (events.zipIdx.map fun q =>
            if LiesWithin js p.1 p.2 q.1 then recordedAmount js series q.1 key else 0).sum := by
          refine congrArg List.sum (List.forall₂_eq_eq_eq ▸ ?_)
          rw [List.forall₂_map_left_iff, List.forall₂_map_right_iff]
          apply hturns.flip.imp
          intro o q hread
          exact (seriesEvent_spec hnodup hread).2 p.1 p.2 key hstart hstop
      _ = recordedSum js series events p.1 p.2 key := by
          rw [recordedSum]
          conv_rhs => rw [← List.zipIdx_map_fst 0 events, List.map_map]
          rfl

end Events

/-! ## The data of the chart

From the events to the bins. The bins add up what is recorded of the events, which is what they mean for
every series but one.
-/

/-- The bin of an interval. -/
def eventBin (js : Runtime) (series : List Series) (events : List Value) (p : ℚ × ℚ) : Bin :=
  ⟨p.1, p.2, recordedSum js series events p.1 p.2,
    (series.map fun item => recordedSum js series events p.1 p.2 item.key).sum⟩

/-- The data of some bins. -/
def stacked (axis : Axis) (bins : List Bin) : StackedData :=
  ⟨bins, cumulativePoints axis bins, fun key => (bins.map fun bin => bin.values key).sum⟩

/-- The series are valid when their keys are distinct and not empty. -/
theorem validateSeries_eq_ok {series : List Series} : validateSeries series = .ok () ↔
    (∀ item ∈ series, item.key ≠ []) ∧ (series.map Series.key).Nodup := by
  have hfrom (index : ℕ) (seen : List Str) : validateSeriesFrom index seen series = .ok () ↔
      (∀ item ∈ series, item.key ≠ [] ∧ item.key ∉ seen) ∧ (series.map Series.key).Nodup := by
    induction series generalizing index seen with
    | nil => exact iff_of_true rfl ⟨by simp, List.nodup_nil⟩
    | cons item rest ih =>
      rw [validateSeriesFrom, List.forall_mem_cons, List.map_cons, List.nodup_cons]
      split_ifs with hbad
      · refine iff_of_false (by simp) fun h => ?_
        rcases hbad with hempty | hseen
        · exact h.1.1.1 hempty
        · exact h.1.1.2 hseen
      · obtain ⟨hne, hnew⟩ := not_or.mp hbad
        rw [ih]
        have hrest : (∀ other ∈ rest, other.key ≠ [] ∧ other.key ∉ item.key :: seen) ↔
            (∀ other ∈ rest, other.key ≠ [] ∧ other.key ∉ seen) ∧ item.key ∉ rest.map Series.key := by
          simp only [List.mem_cons, not_or, List.mem_map, not_exists, not_and]
          constructor
          · intro h
            exact ⟨fun o ho => ⟨(h o ho).1, (h o ho).2.2⟩, fun o ho => (h o ho).2.1⟩
          · rintro ⟨h, hdistinct⟩ o ho
            exact ⟨(h o ho).1, hdistinct o ho, (h o ho).2⟩
        rw [hrest]
        tauto
  rw [validateSeries, hfrom 0 []]
  simp

/-- The bin of the normalized events is that of the events. -/
theorem binOf_eq {series : List Series} {axis : Axis} (hnodup : (series.map Series.key).Nodup)
    {events : List Value} {normalized : List SeriesEvent}
    (h : normalizedSeriesEvents js events series axis = .ok normalized) {p : ℚ × ℚ}
    (hstart : axis.start ≤ p.1) (hstop : p.2 ≤ axis.stop) :
    binOf normalized p = eventBin js series events p := by
  obtain ⟨-, hproper, hsum⟩ := normalizedSeriesEvents_spec hnodup h
  refine Bin.ext rfl rfl (funext fun key => hsum p key hstart hstop) ?_
  -- the total of an event is the sum of its amounts for the series
  have htotal : (within normalized p).map (fun e => (e.values.map Prod.snd).sum) =
      (within normalized p).map fun e => (series.map fun item => e.amount item.key).sum := by
    apply List.map_congr_left
    intro e he
    rw [← sum_amountAt hnodup fun q hq => ((hproper e (List.mem_of_mem_filter he)).2 q hq).1,
      List.map_map]
    rfl
  have hcomm := Multiset.sum_map_sum_map (within normalized p : Multiset SeriesEvent)
    (series : Multiset Series) (f := fun e item => e.amount item.key)
  simp only [Multiset.map_coe, Multiset.sum_coe] at hcomm
  show ((within normalized p).map fun e => (e.values.map Prod.snd).sum).sum = _
  rw [htotal, hcomm]
  refine congrArg List.sum (List.map_congr_left fun item _ => hsum p item.key hstart hstop)

section Build

variable {series : List Series} {range : Range} {binMs : Number} {axis : Axis}
  (haxis : validateTimeSeriesInputs range binMs = .ok axis) (hseries : validateSeries series = .ok ())
include haxis hseries

/-- Point events are put into the regular bins, unless a conversion throws. -/
theorem buildStackedTimeSeriesData_points {events : List Value}
    (hpoints : denseIntervalInput (.array events) = false) {data : StackedData} :
    buildStackedTimeSeriesData js (.array events) series range binMs = .ok data ↔
      (∀ event ∈ events, Converts js series axis.start axis.stop event) ∧
        data = stacked axis ((boundedTimeIntervals axis).map (eventBin js series events)) := by
  have hnodup := (validateSeries_eq_ok.mp hseries).2
  have hbuild : buildStackedTimeSeriesData js (.array events) series range binMs =
      (normalizedSeriesEvents js events series axis >>= fun normalized =>
        .ok ⟨(fillBins (fun _ => 0) (emptyBins axis) normalized).1,
          cumulativePoints axis (fillBins (fun _ => 0) (emptyBins axis) normalized).1,
          (fillBins (fun _ => 0) (emptyBins axis) normalized).2⟩) := by
    rw [buildStackedTimeSeriesData, haxis, hseries, hpoints]
    rfl
  have hfilled {normalized : List SeriesEvent}
      (h : normalizedSeriesEvents js events series axis = .ok normalized) :
      fillBins (fun _ => 0) (emptyBins axis) normalized =
        ((stacked axis ((boundedTimeIntervals axis).map (eventBin js series events))).bins,
          (stacked axis ((boundedTimeIntervals axis).map (eventBin js series events))).totals) := by
    obtain ⟨hsorted, hproper, -⟩ := normalizedSeriesEvents_spec hnodup h
    have hbins : (boundedTimeIntervals axis).map (binOf normalized) =
        (boundedTimeIntervals axis).map (eventBin js series events) := by
      apply List.map_congr_left
      intro p hp
      obtain ⟨hstart, hstop⟩ := (tiles_boundedTimeIntervals axis).mem_le hp
      exact binOf_eq hnodup h hstart hstop
    rw [fillBins_emptyBins axis hsorted fun e he => (hproper e he).1, ← hbins]
    simp only [stacked, List.map_map]
    rfl
  rw [hbuild, bind_eq_ok, ← normalizedSeriesEvents_returns]
  constructor
  · rintro ⟨normalized, h, hdata⟩
    cases hdata
    rw [hfilled h]
    exact ⟨⟨normalized, h⟩, rfl⟩
  · rintro ⟨⟨normalized, h⟩, rfl⟩
    refine ⟨normalized, h, ?_⟩
    rw [hfilled h]
    rfl

end Build

end Ghpulse.Web
