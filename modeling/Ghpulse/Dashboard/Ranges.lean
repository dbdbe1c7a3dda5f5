import Ghpulse.Dashboard.Buckets

/-!
# Resolving a range

The number of a range is unbounded and passes through the digit limit of `int`, the limits of
`timedelta` and a subtraction of datetimes. `_parse_range` answers 422 where one of the first two fails;
the subtraction is in `build_window` and is not guarded.

The theorem is an equivalence for every text, database, clock and scope: the answer is the window or 422
exactly if the left edge of the window exists. The two ways in which it does not exist are an instant
before the year 1, and an event after the clock for `all`.

Reference: `backend/api_common.py`, `backend/api_dashboard.py`.
-/

open Python Ghpulse.Ingest

namespace Ghpulse.Dashboard

/-! ## The text of a range

What `_RANGE_RE` accepts, as a grammar with a number. `natText` is the decimal text of a number, so
`matchesRange_iff` also says that a range has one reading.
-/

/-- `Nd` and `Nh`, `N` a positive decimal number without leading zero, and their width. -/
inductive RangeText : Str → ℤ → Prop
  | days {n : ℕ} (hn : 0 < n) : RangeText (natText n ++ [cp 'd']) (n * 86400000000)
  | hours {n : ℕ} (hn : 0 < n) : RangeText (natText n ++ [cp 'h']) (n * 3600000000)

/-- A text denotes one width. -/
theorem RangeText.unique {value : Str} {a b : ℤ} (ha : RangeText value a) (hb : RangeText value b) :
    a = b := by
  have hinj {m n : ℕ} {u v : CodePoint} (h : natText m ++ [u] = natText n ++ [v]) : m = n ∧ u = v := by
    obtain ⟨htext, hunit⟩ := List.append_inj' h rfl
    exact ⟨natText_injective htext, (List.cons.inj hunit).1⟩
  generalize hvalue : value = other at hb
  cases ha with
  | days =>
    cases hb with
    | days => rw [(hinj hvalue).1]
    | hours => exact absurd (hinj hvalue).2 (by decide)
  | hours =>
    cases hb with
    | days => exact absurd (hinj hvalue).2 (by decide)
    | hours => rw [(hinj hvalue).1]

/-- A width is positive. -/
theorem RangeText.pos {value : Str} {width : ℤ} (h : RangeText value width) : 0 < width := by
  cases h <;> omega

/-- The text of a width is not `all`. -/
theorem RangeText.ne_all {value : Str} {width : ℤ} (h : RangeText value width) :
    value ≠ lit "all" := by
  have hlast {n : ℕ} {u : CodePoint} (hu : u ≠ cp 'l') : natText n ++ [u] ≠ lit "all" := by
    intro htext
    have hu' : some u = some (cp 'l') := by
      rw [← List.getLast?_concat (l := natText n), htext]
      rfl
    exact hu (Option.some.inj hu')
  cases h with
  | days => exact hlast (by decide)
  | hours => exact hlast (by decide)

/-- The code of a digit. -/
theorem digitChar_val {d : ℕ} (hd : d < 10) : (digitChar d).val = 0x30 + d :=
  Nat.mod_eq_of_lt (by omega)

/-- The character of a digit is one. -/
theorem isDigit_digitChar {d : ℕ} (hd : d < 10) : isDigit (digitChar d) = true := by
  rw [isDigit, digitChar_val hd]
  exact decide_eq_true (by omega)

/-- Every digit character is that of a digit. -/
theorem exists_digitChar {c : CodePoint} (h : isDigit c = true) : ∃ d < 10, c = digitChar d := by
  have hc := of_decide_eq_true h
  refine ⟨c.val - 0x30, by omega, Fin.ext ?_⟩
  rw [digitChar_val (by omega)]
  omega

/-- A text of digit characters is that of some digits. -/
theorem exists_map_digitChar {s : Str} (h : ∀ c ∈ s, isDigit c = true) :
    ∃ ds : List ℕ, (∀ d ∈ ds, d < 10) ∧ s = ds.map digitChar := by
  induction s with
  | nil => exact ⟨[], by simp, rfl⟩
  | cons c s ih =>
    obtain ⟨hc, htail⟩ := List.forall_mem_cons.mp h
    obtain ⟨d, hd, rfl⟩ := exists_digitChar hc
    obtain ⟨ds, hds, rfl⟩ := ih htail
    exact ⟨d :: ds, List.forall_mem_cons.mpr ⟨hd, hds⟩, rfl⟩

/-- A nonempty text of digits is the text of a number, unless it starts with a zero. -/
theorem exists_natText {c : CodePoint} {cs : Str} (h : ∀ x ∈ c :: cs, isDigit x = true)
    (hc : c ≠ cp '0') : ∃ n, 0 < n ∧ c :: cs = natText n := by
  obtain ⟨ds, hds, hs⟩ := exists_map_digitChar h
  cases ds with
  | nil => cases hs
  | cons d ds =>
    have hd : d ≠ 0 := by
      rintro rfl
      exact hc (List.cons.inj hs).1
    have hback : Nat.digits 10 (Nat.ofDigits 10 (d :: ds).reverse) = (d :: ds).reverse := by
      apply Nat.digits_ofDigits 10 (by decide)
      · exact fun x hx => hds x (List.mem_reverse.mp hx)
      · intro hne
        rwa [List.getLast_reverse]
    have hne : Nat.ofDigits 10 (d :: ds).reverse ≠ 0 := by
      intro hzero
      rw [hzero, Nat.digits_zero] at hback
      exact absurd hback.symm (by simp)
    refine ⟨_, Nat.pos_of_ne_zero hne, ?_⟩
    rw [hs, natText, decimalDigits, if_neg hne, hback, List.reverse_reverse]

/-- The text of a positive number does not start with a zero. -/
theorem natText_eq_cons {n : ℕ} (hn : 0 < n) :
    ∃ c cs, natText n = c :: cs ∧ c ≠ cp '0' ∧ isDigit c = true ∧ ∀ x ∈ cs, isDigit x = true := by
  have hdigit : ∀ c ∈ natText n, isDigit c = true := by
    intro c hc
    obtain ⟨d, hd, rfl⟩ := mem_natText hc
    exact isDigit_digitChar hd
  cases ht : natText n with
  | nil => exact absurd ht (natText_ne_nil n)
  | cons c cs =>
    rw [ht] at hdigit
    obtain ⟨hc, hcs⟩ := List.forall_mem_cons.mp hdigit
    refine ⟨c, cs, rfl, ?_, hc, hcs⟩
    rintro rfl
    have hdigits : decimalDigits n = (Nat.digits 10 n).reverse := if_neg hn.ne'
    have hne : Nat.digits 10 n ≠ [] := Nat.digits_ne_nil_iff_ne_zero.mpr hn.ne'
    have hlast := Nat.getLast_digit_ne_zero 10 hn.ne'
    have hlt : (Nat.digits 10 n).getLast hne < 10 :=
      Nat.digits_lt_base (by decide) (List.getLast_mem hne)
    rw [natText, hdigits, ← List.dropLast_append_getLast hne, List.reverse_append] at ht
    have hhead : digitChar ((Nat.digits 10 n).getLast hne) = cp '0' := (List.cons.inj ht).1
    have hval := congrArg Fin.val hhead
    rw [digitChar_val hlt] at hval
    have hzero : (cp '0').val = 0x30 := by decide
    omega

/-- The regular expression accepts exactly the ranges. -/
theorem matchesRange_iff {value : Str} :
    matchesRange value = true ↔ ∃ width, RangeText value width := by
  constructor
  · intro h
    cases value with
    | nil => cases h
    | cons c cs =>
      simp only [matchesRange, Bool.and_eq_true, decide_eq_true_eq, List.all_eq_true,
        Option.any_eq_true] at h
      obtain ⟨⟨⟨hc, hzero⟩, hall⟩, u, hu, hunit⟩ := h
      obtain ⟨n, hn, hnat⟩ := exists_natText (List.forall_mem_cons.mpr ⟨hc, hall⟩) hzero
      have hvalue : c :: cs = natText n ++ [u] := by
        rw [← hnat, List.cons_append, List.dropLast_append_getLast? u hu]
      rw [hvalue]
      rcases hunit with rfl | rfl
      · exact ⟨_, .days hn⟩
      · exact ⟨_, .hours hn⟩
  · rintro ⟨width, h⟩
    have haccept {n : ℕ} (hn : 0 < n) {u : CodePoint} (hu : u = cp 'd' ∨ u = cp 'h') :
        matchesRange (natText n ++ [u]) = true := by
      obtain ⟨c, cs, ht, hzero, hc, hcs⟩ := natText_eq_cons hn
      rw [ht, List.cons_append, matchesRange, List.dropLast_concat, List.getLast?_concat, hc]
      simp only [Option.any_some, Bool.and_eq_true, decide_eq_true_eq, List.all_eq_true]
      exact ⟨⟨⟨trivial, hzero⟩, hcs⟩, hu⟩
    cases h with
    | days hn => exact haccept hn (Or.inl rfl)
    | hours hn => exact haccept hn (Or.inr rfl)

/-! ## Parsing

`int` has a limit of digits and `timedelta` one of days. The second is much smaller, so a number that
meets the first limit is refused by the other as well, and the two limits are one condition on the width.
-/

/-- The number of microseconds from which on `timedelta` overflows: 10⁹ days. -/
def timedeltaLimit : ℤ := 1000000000 * 86400000000

/-- A width can be represented up to the limit of `timedelta`, and raises from there on. -/
theorem timedelta_of_nonneg {x : ℤ} (h0 : 0 ≤ x) :
    (x < timedeltaLimit → timedelta x = .ok x) ∧
      (timedeltaLimit ≤ x → ∃ e, timedelta x = .error e) := by
  unfold timedelta timedeltaLimit
  dsimp only
  constructor
  · intro h
    rw [if_pos (by omega), if_pos (by omega)]
  · intro h
    split_ifs with hint hdays
    · omega
    · exact ⟨_, rfl⟩
    · exact ⟨_, rfl⟩

/-- A range is parsed to its width, or rejected if that is out of the range of `timedelta`. A number
above the digit limit of `int` is out of that range too. -/
theorem parseRange_of_text (printable : CodePoint → Bool) (now : Instant) {value : Str} {width : ℤ}
    (h : RangeText value width) :
    parseRange printable now value =
      if width < timedeltaLimit then .ok width else .error (badRange printable value) := by
  have hmatches : matchesRange value = true := matchesRange_iff.mpr ⟨width, h⟩
  have hall := h.ne_all
  have hpos := h.pos
  obtain ⟨n, u, rfl, rfl, hunit⟩ : ∃ (n : ℕ) (u : CodePoint), value = natText n ++ [u] ∧
      width = n * unitMicros value ∧ 3600000000 ≤ unitMicros value := by
    cases h with
    | @days n hn =>
      have hunit : unitMicros (natText n ++ [cp 'd']) = 86400000000 := by
        rw [unitMicros, List.getLast?_concat, if_pos rfl]
      exact ⟨n, cp 'd', rfl, by rw [hunit], by rw [hunit]; norm_num⟩
    | @hours n hn =>
      have hunit : unitMicros (natText n ++ [cp 'h']) = 3600000000 := by
        rw [unitMicros, List.getLast?_concat, if_neg (by decide)]
      exact ⟨n, cp 'h', rfl, by rw [hunit], by rw [hunit]⟩
  obtain ⟨hfits, hoverflows⟩ := timedelta_of_nonneg hpos.le
  rw [parseRange, if_neg hall, if_neg (by rw [hmatches]; decide), List.dropLast_concat, int_natText]
  by_cases hlen : (decimalDigits n).length ≤ maxStrDigits
  · rw [if_pos hlen]
    dsimp only
    by_cases hlt : (n : ℤ) * unitMicros (natText n ++ [u]) < timedeltaLimit
    · rw [hfits hlt, if_pos hlt]
      exact if_neg (not_le.mpr hpos)
    · obtain ⟨e, he⟩ := hoverflows (not_lt.mp hlt)
      rw [he, if_neg hlt]
  · rw [if_neg hlen]
    refine (if_neg fun hlt => hlen ?_).symm
    have hn : n < 10 ^ 11 := by
      have := mul_le_mul_of_nonneg_left hunit (Int.natCast_nonneg n)
      unfold timedeltaLimit at hlt
      omega
    exact (length_decimalDigits_le (by decide) hn).trans (by decide)

/-- Every other text is rejected. -/
theorem parseRange_of_not_text (printable : CodePoint → Bool) (now : Instant) {value : Str}
    (hall : value ≠ lit "all") (h : ¬ ∃ width, RangeText value width) :
    parseRange printable now value = .error (badRange printable value) := by
  have hmatches : matchesRange value = false :=
    Bool.eq_false_iff.mpr fun hm => h (matchesRange_iff.mp hm)
  rw [parseRange, if_neg hall, if_pos hmatches]

/-! ## The earliest event

`_event_bounds` is a minimum over the union, with NULL for no event.
-/

/-- The earliest event timestamp in a repository scope. -/
def IsEarliest (db : Db) (repository : Option Str) (t : Instant) : Prop :=
  IsLeast {t | ∃ e ∈ eventUnion db, inScope repository e.repositoryId = true ∧ e.eventAt = some t} t

/-- The instants of the scope are those of its events. -/
theorem mem_scope_iff (db : Db) (repository : Option Str) (t : Instant) :
    t ∈ ((eventUnion db).filter fun e => Sql.holds (Sql.and (Sql.isNotNull e.eventAt)
        (repositoryPredicate repository e.repositoryId))).filterMap Event.eventAt ↔
      ∃ e ∈ eventUnion db, inScope repository e.repositoryId = true ∧ e.eventAt = some t := by
  simp only [List.mem_filterMap, List.mem_filter, Sql.holds_and, Sql.holds_isNotNull,
    holds_repositoryPredicate, Bool.and_eq_true]
  constructor
  · rintro ⟨e, ⟨he, -, hscope⟩, ht⟩
    exact ⟨e, he, hscope, ht⟩
  · rintro ⟨e, he, hscope, ht⟩
    exact ⟨e, ⟨he, by rw [ht]; rfl, hscope⟩, ht⟩

/-- The bound is the earliest event of the scope. -/
theorem eventBounds_eq_some_iff {db : Db} {repository : Option Str} {t : Instant} :
    eventBounds db repository = some t ↔ IsEarliest db repository t := by
  rw [eventBounds, List.min?_eq_some_iff, mem_scope_iff]
  refine and_congr_right fun _ => forall_congr' fun u => ?_
  rw [mem_scope_iff]
  rfl

/-- There is no bound when the scope has no event. -/
theorem eventBounds_eq_none_iff {db : Db} {repository : Option Str} :
    eventBounds db repository = none ↔ ¬ ∃ t, IsEarliest db repository t := by
  rw [Option.eq_none_iff_forall_ne_some, not_exists]
  exact forall_congr' fun t => not_congr eventBounds_eq_some_iff

/-! ## Resolution

What a window must be for a range (`Resolves`), what counts as an answer (`Answered`), and the condition
(`HasLeftEdge`). `all` and a width are separate cases, since only the second one subtracts.
-/

/-- The window that a range stands for. -/
structure Resolves (db : Db) (now : Instant) (rng : Str) (repository : Option Str)
    (window : RangeWindow) : Prop where
  known : rng = lit "all" ∨ ∃ width, RangeText rng width
  start_le : window.start ≤ window.stop
  stop_eq : window.stop = now
  width_eq : ∀ width, RangeText rng width → window.stop - window.start = width
  earliest : rng = lit "all" → ∀ t, IsEarliest db repository t → window.start = t
  empty : rng = lit "all" → (¬ ∃ t, IsEarliest db repository t) → window.start = window.stop

/-- A range is resolved to its window or answered with 422. -/
def Answered (db : Db) (now : Instant) (rng : Str) (repository : Option Str) :
    Except Failure RangeWindow → Prop
  | .ok window => Resolves db now rng repository window
  | .error (.http status _) => status = 422
  | .error (.raised _) => False

/-- The left edge of the window exists: for `all` the earliest event is a datetime at or before now, and
the width of any other range is rejected or does not reach back before the first datetime. -/
structure HasLeftEdge (db : Db) (now : Instant) (rng : Str) (repository : Option Str) : Prop where
  all : rng = lit "all" → ∀ t, IsEarliest db repository t → minInstant ≤ t ∧ t ≤ now
  width : ∀ width, RangeText rng width → timedeltaLimit ≤ width ∨ minInstant ≤ now - width

section Resolution

variable (printable : CodePoint → Bool) (db : Db) (clock : ReadClock) (rng : Str)
  (repository : Option Str)

/-- The range `all`. -/
theorem answered_all_iff :
    Answered db clock.now (lit "all") repository
        (buildWindow printable db clock (lit "all") repository) ↔
      ∀ t, IsEarliest db repository t → minInstant ≤ t ∧ t ≤ clock.now := by
  have hnone : ¬ ∃ width, RangeText (lit "all") width := by
    rw [← matchesRange_iff]
    decide
  have hbuild : buildWindow printable db clock (lit "all") repository =
      allWindow db clock clock.rangeAt (lit "all") repository := rfl
  rw [hbuild, allWindow]
  cases hbounds : eventBounds db repository with
  -- no event: the window is empty and ends now
  | none =>
    have hempty := eventBounds_eq_none_iff.mp hbounds
    refine iff_of_true ?_ fun t ht => absurd ⟨t, ht⟩ hempty
    exact {
      known := Or.inl rfl
      start_le := le_refl clock.now
      stop_eq := rfl
      width_eq := fun width h => absurd ⟨width, h⟩ hnone
      earliest := fun _ t ht => absurd ⟨t, ht⟩ hempty
      empty := fun _ _ => rfl }
  -- the earliest event starts the window, if it is a datetime and not after the clock
  | some start =>
    have hearliest := eventBounds_eq_some_iff.mp hbounds
    have hunique {t : Instant} (ht : IsEarliest db repository t) : start = t := hearliest.unique ht
    dsimp only
    by_cases hrange : InRange start
    · rw [dif_pos hrange]
      constructor
      · intro h t ht
        rw [← hunique ht]
        exact ⟨hrange.1, h.start_le⟩
      · intro h
        exact {
          known := Or.inl rfl
          start_le := (h start hearliest).2
          stop_eq := rfl
          width_eq := fun width h => absurd ⟨width, h⟩ hnone
          earliest := fun _ t ht => hunique ht
          empty := fun _ hempty => absurd ⟨start, hearliest⟩ hempty }
    · rw [dif_neg hrange]
      refine iff_of_false id fun h => hrange ?_
      obtain ⟨hmin, hnow⟩ := h start hearliest
      exact ⟨hmin, le_trans hnow clock.now_range.2⟩

variable {rng} in
/-- A range of days or hours. -/
theorem answered_text_iff {width : ℤ} (h : RangeText rng width) :
    Answered db clock.now rng repository (buildWindow printable db clock rng repository) ↔
      timedeltaLimit ≤ width ∨ minInstant ≤ clock.now - width := by
  have hpos : 0 < width := h.pos
  have hall : rng ≠ lit "all" := h.ne_all
  have hparse := parseRange_of_text printable clock.rangeAt h
  unfold buildWindow
  by_cases hlt : width < timedeltaLimit
  · rw [hparse, if_pos hlt]
    show Answered db clock.now rng repository (if rng = lit "all" then _ else _) ↔ _
    rw [if_neg hall]
    have hnow := inRange_iff.mp clock.now_range
    split
    · next start hstart =>
      unfold shift at hstart
      split_ifs at hstart with hrange
      cases hstart
      refine iff_of_true ?_ (Or.inr hrange.1)
      exact {
        known := Or.inr ⟨width, h⟩
        start_le := show (clock.now + -width : ℤ) ≤ clock.now by linarith
        stop_eq := rfl
        width_eq := fun w hw => by
          show (clock.now - (clock.now + -width) : ℤ) = w
          rw [hw.unique h]
          ring
        earliest := fun heq => absurd heq hall
        empty := fun heq => absurd heq hall }
    · next e hstart =>
      unfold shift at hstart
      split_ifs at hstart with hrange
      refine iff_of_false id ?_
      rw [inRange_iff] at hrange
      rintro (hlimit | hmin)
      · exact absurd hlt (not_lt.mpr hlimit)
      · have hmin : (-62135596800000000 : ℤ) ≤ clock.now - width := hmin
        omega
  · rw [hparse, if_neg hlt]
    exact iff_of_true rfl (Or.inl (not_lt.mp hlt))

/-- A range request is answered with its window or with 422 if and only if the left edge of the window
exists, for every repository that its caller has let through. -/
theorem buildWindow_answered_iff :
    Answered db clock.now rng repository (buildWindow printable db clock rng repository) ↔
      HasLeftEdge db clock.now rng repository := by
  by_cases hall : rng = lit "all"
  · subst hall
    rw [answered_all_iff]
    exact ⟨fun h => ⟨fun _ => h, fun w hw => absurd rfl hw.ne_all⟩, fun hreach => hreach.all rfl⟩
  · by_cases htext : ∃ width, RangeText rng width
    · obtain ⟨width, h⟩ := htext
      rw [answered_text_iff printable db clock repository h]
      constructor
      · intro hreach
        exact ⟨fun h => absurd h hall, fun w hw => hw.unique h ▸ hreach⟩
      · exact fun hreach => hreach.width width h
    · have hparse := parseRange_of_not_text printable clock.rangeAt hall htext
      unfold buildWindow
      rw [hparse]
      exact iff_of_true rfl ⟨fun h => absurd h hall, fun w hw => absurd ⟨w, hw⟩ htext⟩

end Resolution

/-- A range of days, its number read from its digits. -/
theorem rangeText_days (ds : List ℕ) (n : ℕ) (hn : 0 < n) (h : Nat.digits 10 n = ds.reverse) :
    RangeText (ds.map digitChar ++ [cp 'd']) (n * 86400000000) := by
  have htext : natText n = ds.map digitChar := by
    rw [natText, decimalDigits, if_neg hn.ne', h, List.reverse_reverse]
  exact htext ▸ .days hn

/-- A clock that stands at noon on 2026-08-11. -/
def noon : ReadClock := ⟨1786449600000000, 1786449600000000, 1786449600000000, by decide⟩

/-- `30d` is answered. -/
theorem thirtyDays_answered :
    Answered (oneIssue 0) noon.now (lit "30d") none
      (buildWindow (fun _ => true) (oneIssue 0) noon (lit "30d") none) := by
  have hwidth : RangeText (lit "30d") (30 * 86400000000) :=
    rangeText_days [3, 0] 30 (by decide) (by norm_num)
  refine (buildWindow_answered_iff (fun _ => true) (oneIssue 0) noon (lit "30d") none).mpr ⟨?_, ?_⟩
  · intro h
    exact absurd h (by decide)
  · intro w hw
    exact Or.inr (hw.unique hwidth ▸ by decide)

/-- `999999d` reaches back before the first datetime and raises; a window of `all` ends before it starts
when an event is later than the clock. -/
theorem range_not_answered :
    ¬ Answered (oneIssue 0) noon.now (lit "999999d") none
        (buildWindow (fun _ => true) (oneIssue 0) noon (lit "999999d") none) ∧
      ¬ Answered (oneIssue 1786449600000001) noon.now (lit "all") none
        (buildWindow (fun _ => true) (oneIssue 1786449600000001) noon (lit "all") none) := by
  have hwidth : RangeText (lit "999999d") (999999 * 86400000000) :=
    rangeText_days [9, 9, 9, 9, 9, 9] 999999 (by decide) (by norm_num)
  constructor
  · rw [answered_text_iff _ _ _ _ hwidth]
    decide
  · rw [answered_all_iff]
    intro h
    have hearliest : IsEarliest (oneIssue 1786449600000001) none 1786449600000001 :=
      eventBounds_eq_some_iff.mp (by decide +kernel)
    exact absurd (h _ hearliest).2 (by decide)

end Ghpulse.Dashboard
