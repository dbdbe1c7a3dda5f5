import Ghpulse.Library.PyStr
import Mathlib.Algebra.BigOperators.Group.Finset.Basic
import Mathlib.Algebra.Order.BigOperators.Group.Finset
import Mathlib.Algebra.Order.Field.Rat
import Mathlib.Algebra.Order.Ring.Star
import Mathlib.Data.Finset.Image
import Mathlib.Data.Rat.Star
import Mathlib.Order.Bounds.Basic
import Mathlib.Tactic.Linarith

/-!
# The speed gate

The comparator of two builds: it takes the minimum of each test over the rounds of a build, compares the
sums over the tests that are in every round of both, and exits with 0, 1 or 2. Durations are exact.

A report is a set of test ids with a duration each. Reading and printing reports is left out, so a
comparison starts from the rounds that were parsed; an empty list of rounds is kept as a case, since the
comparator refuses it with a text of its own.

Reference: `scripts/ci/compare_durations.py`.
-/

open Python

namespace Ghpulse.Ci

/-! ## Rounds

`fold_rounds` intersects the ids and takes minima, one dictionary after the other. A test that is missing
in one round is not compared at all, however often it was fast.
-/

/-- A dictionary from test ids to durations; `time` is only read at an id of `ids`. -/
structure Durations where
  ids : Finset Str
  time : Str → ℚ

/-- What `parse_junit` returns: at least one test, and no negative duration. -/
structure Round extends Durations where
  ids_nonempty : ids.Nonempty
  time_nonneg : ∀ nid ∈ ids, 0 ≤ time nid

/-- A `ComparisonError`, by its text. -/
structure ComparisonError where
  message : Str

/-- `min(...)` of a generator with at least one element. -/
def least (first : ℚ) (rest : List ℚ) : ℚ := rest.foldl min first

/-- `common`, after the loop of `fold_rounds`. -/
def common (first : Round) (rest : List Round) : Finset Str :=
  rest.foldl (fun ids other => ids ∩ other.ids) first.ids

/-- `fold_rounds`, after the reports have been parsed. -/
def foldRounds : List Round → Except ComparisonError Durations
  | [] => .error ⟨lit "no JUnit reports given"⟩
  | first :: rest =>
    if common first rest = ∅ then
      .error ⟨lit "no test passed in every round — nothing comparable"⟩
    else .ok ⟨common first rest, fun nid => least (first.time nid) (rest.map fun r => r.time nid)⟩

/-! ## The comparison

`compare` adds up the minima of the shared tests and puts the ratio of the sums against the budget. The
listing per test only goes into the report, the decision does not read it.
-/

/-- A row of `per_test`. -/
structure Movement where
  delta : ℚ
  relative : ℚ
  nid : Str
  was : ℚ
  now : ℚ
  deriving DecidableEq

/-- What `compare` returns; the three lists of ids and rows are sets here, and their order is left to the
report. -/
structure Comparison where
  shared : ℕ
  baseOnly : Finset Str
  headOnly : Finset Str
  baseTotal : ℚ
  headTotal : ℚ
  ratio : ℚ
  perTest : Finset Movement

/-- `compare`. -/
def compare (base head : Durations) : Except ComparisonError Comparison :=
  let shared := base.ids ∩ head.ids
  let baseTotal := ∑ nid ∈ shared, base.time nid
  let headTotal := ∑ nid ∈ shared, head.time nid
  if shared = ∅ then
    .error ⟨lit "the two builds share no passing test — the suite was renamed or restructured " ++
      lit "wholesale, so there is nothing to compare"⟩
  else if baseTotal ≤ 0 then
    .error ⟨lit "baseline total is zero — the reports carry no usable timings"⟩
  else .ok
    { shared := shared.card
      baseOnly := base.ids \ head.ids
      headOnly := head.ids \ base.ids
      baseTotal := baseTotal
      headTotal := headTotal
      ratio := headTotal / baseTotal
      perTest := (shared.filter fun nid => 1 / 20 ≤ base.time nid).image fun nid =>
        ⟨head.time nid - base.time nid, head.time nid / base.time nid - 1, nid, base.time nid,
          head.time nid⟩ }

/-- The exit status of `main`. -/
def main (base head : List Round) (maxRegression : ℚ) : ℕ :=
  match (do compare (← foldRounds base) (← foldRounds head) : Except ComparisonError Comparison) with
  | .error _ => 2
  | .ok result => if maxRegression < result.ratio - 1 then 1 else 0

/-! ## What is compared

The same quantities without the loops: a set of tests, the least duration of each, and a sum.
`foldRounds_eq` says that the code computes these.
-/

/-- The tests that are in every round. -/
def population (rounds : List Round) : Finset Str :=
  match rounds with
  | [] => ∅
  | first :: rest => common first rest

/-- The tests that are in every round of both builds. -/
def shared (base head : List Round) : Finset Str := population base ∩ population head

/-- The durations of a test. -/
def timesOf (rounds : List Round) (nid : Str) : Set ℚ := {t | ∃ r ∈ rounds, r.time nid = t}

/-- The minimum of a test over the rounds. -/
def fastest (rounds : List Round) (nid : Str) : ℚ :=
  match rounds with
  | [] => 0
  | first :: rest => least (first.time nid) (rest.map fun r => r.time nid)

/-- The sum of the minima over the shared tests. -/
def total (rounds : List Round) (ids : Finset Str) : ℚ := ∑ nid ∈ ids, fastest rounds nid

/-- A test is common when it is in every round. -/
theorem mem_common {first : Round} {rest : List Round} {nid : Str} :
    nid ∈ common first rest ↔ ∀ r ∈ first :: rest, nid ∈ r.ids := by
  unfold common
  rw [List.forall_mem_cons]
  generalize first.ids = ids
  induction rest generalizing ids with
  | nil => simp
  | cons other rest ih => rw [List.foldl_cons, ih, Finset.mem_inter, List.forall_mem_cons, and_assoc]

/-- A test is in the population exactly when it is in every round. -/
theorem mem_population {rounds : List Round} (hne : rounds ≠ []) {nid : Str} :
    nid ∈ population rounds ↔ ∀ r ∈ rounds, nid ∈ r.ids := by
  cases rounds with
  | nil => exact absurd rfl hne
  | cons first rest => exact mem_common

/-- `least` is the least of its arguments. -/
theorem isLeast_least (first : ℚ) (rest : List ℚ) : IsLeast {t | t ∈ first :: rest} (least first rest) := by
  unfold least
  induction rest generalizing first with
  | nil => exact ⟨List.mem_singleton_self first, fun t ht => (List.mem_singleton.mp ht).ge⟩
  | cons t rest ih =>
    obtain ⟨hmem, hle⟩ := ih (min first t)
    have hmin := hle List.mem_cons_self
    refine ⟨?_, fun x hx => ?_⟩
    · rcases List.mem_cons.mp hmem with heq | hmem
      · rw [List.foldl_cons, heq]
        rcases min_choice first t with h | h <;> simp [h]
      · exact List.mem_cons_of_mem _ (List.mem_cons_of_mem _ hmem)
    · rcases List.mem_cons.mp hx with rfl | hx
      · exact hmin.trans (min_le_left _ _)
      · rcases List.mem_cons.mp hx with rfl | hx
        · exact hmin.trans (min_le_right _ _)
        · exact hle (List.mem_cons_of_mem _ hx)

/-- The minimum of a test is the least of its durations. -/
theorem isLeast_fastest {rounds : List Round} (hne : rounds ≠ []) (nid : Str) :
    IsLeast (timesOf rounds nid) (fastest rounds nid) := by
  cases rounds with
  | nil => exact absurd rfl hne
  | cons first rest =>
    have hleast := isLeast_least (first.time nid) (rest.map fun r => r.time nid)
    have htimes : timesOf (first :: rest) nid =
        {t | t ∈ first.time nid :: rest.map fun r => r.time nid} := by
      ext t
      simp only [timesOf, Set.mem_ofPred_eq, ← List.map_cons (f := fun r : Round => r.time nid),
        List.mem_map]
    rw [htimes]
    exact hleast

/-- The rounds of a build are folded to the minima of its population, or refused without one. -/
theorem foldRounds_eq {rounds : List Round} (hne : rounds ≠ []) :
    foldRounds rounds = if population rounds = ∅ then
      .error ⟨lit "no test passed in every round — nothing comparable"⟩
    else .ok ⟨population rounds, fastest rounds⟩ := by
  cases rounds with
  | nil => exact absurd rfl hne
  | cons first rest => rfl

/-! ## The decision

The three exit statuses as conditions on the shared tests. Every refusal, whichever of the two steps it
comes from, is a status of 2.
-/

/-- The sum over shared tests is not negative. -/
theorem total_nonneg {rounds : List Round} (hne : rounds ≠ []) {ids : Finset Str}
    (hids : ids ⊆ population rounds) : 0 ≤ total rounds ids := by
  refine Finset.sum_nonneg fun nid hnid => ?_
  obtain ⟨r, hr, hfastest⟩ := (isLeast_fastest hne nid).1
  rw [← hfastest]
  exact r.time_nonneg nid ((mem_population hne).mp (hids hnid) r hr)

section Decision

variable {base head : List Round} (hbase : base ≠ []) (hhead : head ≠ []) (budget : ℚ)
include hbase hhead

/-- The exit status, from the shared tests alone. -/
theorem main_eq :
    main base head budget =
      if shared base head = ∅ ∨ total base (shared base head) = 0 then 2
      else if (1 + budget) * total base (shared base head) < total head (shared base head) then 1
      else 0 := by
  have hnonneg : 0 ≤ total base (shared base head) := total_nonneg hbase Finset.inter_subset_left
  unfold main
  rw [foldRounds_eq hbase, foldRounds_eq hhead]
  -- each of the two foldings can refuse, and then nothing is shared
  by_cases hemptyBase : population base = ∅
  · have hempty : shared base head = ∅ := by rw [shared, hemptyBase, Finset.empty_inter]
    rw [if_pos hemptyBase, if_pos (Or.inl hempty)]
    rfl
  by_cases hemptyHead : population head = ∅
  · have hempty : shared base head = ∅ := by rw [shared, hemptyHead, Finset.inter_empty]
    rw [if_neg hemptyBase, if_pos hemptyHead, if_pos (Or.inl hempty)]
    rfl
  rw [if_neg hemptyBase, if_neg hemptyHead]
  show (match compare ⟨population base, fastest base⟩ ⟨population head, fastest head⟩ with
    | .error _ => 2
    | .ok result => if budget < result.ratio - 1 then 1 else 0) = _
  have hshared : population base ∩ population head = shared base head := rfl
  have hbaseTotal : ∑ nid ∈ shared base head, fastest base nid = total base (shared base head) := rfl
  have hheadTotal : ∑ nid ∈ shared base head, fastest head nid = total head (shared base head) := rfl
  simp only [compare, hshared, hbaseTotal, hheadTotal]
  by_cases hempty : shared base head = ∅
  · rw [if_pos hempty, if_pos (Or.inl hempty)]
  rw [if_neg hempty]
  by_cases hzero : total base (shared base head) = 0
  · rw [if_pos hzero.le, if_pos (Or.inr hzero)]
  have hpos : 0 < total base (shared base head) := lt_of_le_of_ne hnonneg (Ne.symm hzero)
  rw [if_neg (not_le.mpr hpos), if_neg (not_or.mpr ⟨hempty, hzero⟩)]
  -- the ratio is compared as a quotient in the code and as a product here
  have hover : budget < total head (shared base head) / total base (shared base head) - 1 ↔
      (1 + budget) * total base (shared base head) < total head (shared base head) := by
    rw [lt_sub_iff_add_lt', lt_div_iff₀ hpos]
  simp only [hover]

/-- The gate refuses to compare when no test is shared, or the shared ones took no time. -/
theorem main_eq_two_iff :
    main base head budget = 2 ↔ shared base head = ∅ ∨ total base (shared base head) = 0 := by
  rw [main_eq hbase hhead]
  split_ifs with h <;> simp [h]

/-- It fails when the shared tests got slower than the budget allows. -/
theorem main_eq_one_iff :
    main base head budget = 1 ↔ main base head budget ≠ 2 ∧
      (1 + budget) * total base (shared base head) < total head (shared base head) := by
  rw [ne_eq, main_eq_two_iff hbase hhead, main_eq hbase hhead]
  split_ifs with h h'
  · simp [h]
  · simp [h, h']
  · simp [h, h']

/-- It passes when they did not. -/
theorem main_eq_zero_iff :
    main base head budget = 0 ↔ main base head budget ≠ 2 ∧
      total head (shared base head) ≤ (1 + budget) * total base (shared base head) := by
  rw [ne_eq, main_eq_two_iff hbase hhead, main_eq hbase hhead, ← not_lt]
  split_ifs with h h'
  · simp [h]
  · simp [h, h']
  · simp [h, h']

end Decision

/-! ## What does not change it

What the gate may not depend on: tests outside the shared set, the order of the rounds, a round that is
repeated. And what it must not punish: a test that got faster.
-/

/-- The edits that leave the durations of some tests alone: any change of other tests, another order, and
a round that is repeated. -/
inductive Edited (ids : Finset Str) : List Round → List Round → Prop where
  | outside {rounds rounds' : List Round}
      (h : List.Forall₂ (fun r r' : Round => ∀ nid ∈ ids, r.time nid = r'.time nid) rounds rounds') :
      Edited ids rounds rounds'
  | reordered {rounds rounds' : List Round} (h : rounds.Perm rounds') : Edited ids rounds rounds'
  | repeated {rounds : List Round} {r : Round} (h : r ∈ rounds) : Edited ids rounds (r :: rounds)
  | trans {rounds rounds' rounds'' : List Round} (h : Edited ids rounds rounds')
      (h' : Edited ids rounds' rounds'') : Edited ids rounds rounds''

/-- The same tests, none of them slower. -/
def Lowered (r r' : Round) : Prop := r'.ids = r.ids ∧ ∀ nid ∈ r.ids, r'.time nid ≤ r.time nid

/-- An edit keeps the durations of the tests that it leaves alone. -/
theorem Edited.timesOf {ids : Finset Str} {rounds rounds' : List Round} (h : Edited ids rounds rounds')
    {nid : Str} (hnid : nid ∈ ids) : timesOf rounds nid = timesOf rounds' nid := by
  induction h with
  | outside h =>
    ext t
    unfold Ci.timesOf
    rw [Set.mem_ofPred_eq, Set.mem_ofPred_eq]
    induction h with
    | nil => rfl
    | cons hr _ ih => rw [List.exists_mem_cons_iff, List.exists_mem_cons_iff, ih, hr nid hnid]
  | reordered h =>
    ext t
    exact exists_congr fun r => and_congr_left fun _ => h.mem_iff
  | @repeated rounds r h =>
    ext t
    unfold Ci.timesOf
    rw [Set.mem_ofPred_eq, Set.mem_ofPred_eq, List.exists_mem_cons_iff]
    exact ⟨Or.inr, fun ht => ht.elim (fun ht => ⟨r, h, ht⟩) id⟩
  | trans _ _ ih ih' => exact ih.trans ih'

/-- An edit leaves a round. -/
theorem Edited.ne_nil {ids : Finset Str} {rounds rounds' : List Round} (h : Edited ids rounds rounds')
    (hne : rounds ≠ []) : rounds' ≠ [] := by
  induction h with
  | outside h =>
    rintro rfl
    cases h
    exact hne rfl
  | reordered h =>
    rintro rfl
    exact hne h.eq_nil
  | repeated => exact List.cons_ne_nil _ _
  | trans _ _ ih ih' => exact ih' (ih hne)

/-- An edit keeps the sum of the minima of the tests that it leaves alone. -/
theorem Edited.total {ids : Finset Str} {rounds rounds' : List Round} (h : Edited ids rounds rounds')
    (hne : rounds ≠ []) : total rounds ids = total rounds' ids := by
  refine Finset.sum_congr rfl fun nid hnid => ?_
  have hleast := isLeast_fastest hne nid
  rw [h.timesOf hnid] at hleast
  exact hleast.unique (isLeast_fastest (h.ne_nil hne) nid)

section Lowered

variable {rounds rounds' : List Round} (h : List.Forall₂ Lowered rounds rounds')
include h

/-- Lowering durations keeps the population. -/
theorem population_lowered : population rounds = population rounds' := by
  by_cases hne : rounds = []
  · subst hne
    cases h
    rfl
  have hne' : rounds' ≠ [] := by
    rintro rfl
    cases h
    exact hne rfl
  ext nid
  rw [mem_population hne, mem_population hne']
  clear hne hne'
  induction h with
  | nil => rfl
  | cons hr _ ih => rw [List.forall_mem_cons, List.forall_mem_cons, ih, hr.1]

/-- Lowering durations does not raise a minimum. -/
theorem fastest_lowered (hne : rounds ≠ []) {nid : Str} (hnid : nid ∈ population rounds) :
    fastest rounds' nid ≤ fastest rounds nid := by
  have hne' : rounds' ≠ [] := by
    rintro rfl
    cases h
    exact hne rfl
  obtain ⟨r, hr, hfastest⟩ := (isLeast_fastest hne nid).1
  have hids := (mem_population hne).mp hnid r hr
  -- the round of the minimum has become some other round
  have hlowered : ∃ r' ∈ rounds', Lowered r r' := by
    clear hne hne' hnid hfastest hids
    induction h with
    | nil => cases hr
    | cons hr' _ ih =>
      rcases List.mem_cons.mp hr with rfl | hr
      · exact ⟨_, List.mem_cons_self, hr'⟩
      · obtain ⟨r', hmem, hle⟩ := ih hr
        exact ⟨r', List.mem_cons_of_mem _ hmem, hle⟩
  obtain ⟨r', hr', hle⟩ := hlowered
  calc fastest rounds' nid ≤ r'.time nid := (isLeast_fastest hne' nid).2 ⟨r', hr', rfl⟩
    _ ≤ r.time nid := hle.2 nid hids
    _ = fastest rounds nid := hfastest

end Lowered

/-- The exit status of a comparison and what it depends on. -/
structure DependsOnShared (base head : List Round) (budget : ℚ) : Prop where
  shared_iff : ∀ nid, nid ∈ shared base head ↔
    (∀ r ∈ base, nid ∈ r.ids) ∧ ∀ r ∈ head, nid ∈ r.ids
  minima : ∀ nid, IsLeast (timesOf base nid) (fastest base nid) ∧
    IsLeast (timesOf head nid) (fastest head nid)
  error : main base head budget = 2 ↔ shared base head = ∅ ∨
    (population base = ∅ ∨ population head = ∅) ∨ total base (shared base head) = 0
  failure : main base head budget = 1 ↔ main base head budget ≠ 2 ∧
    (1 + budget) * total base (shared base head) < total head (shared base head)
  success : main base head budget = 0 ↔ main base head budget ≠ 2 ∧
    total head (shared base head) ≤ (1 + budget) * total base (shared base head)
  edited : ∀ base' head', Edited (shared base head) base base' → Edited (shared base head) head head' →
    shared base' head' = shared base head → main base' head' budget = main base head budget
  lowered : ∀ head', List.Forall₂ Lowered head head' → main base head budget = 0 →
    main base head' budget = 0

/-- The speed gate depends only on the tests that are in every round of both builds: on their minima, and
on nothing else. -/
theorem speedGate {base head : List Round} (hbase : base ≠ []) (hhead : head ≠ []) (budget : ℚ) :
    DependsOnShared base head budget where
  shared_iff nid := by rw [shared, Finset.mem_inter, mem_population hbase, mem_population hhead]
  minima nid := ⟨isLeast_fastest hbase nid, isLeast_fastest hhead nid⟩
  error := by
    rw [main_eq_two_iff hbase hhead]
    have hempty : population base = ∅ ∨ population head = ∅ → shared base head = ∅ := by
      rintro (h | h)
      · rw [shared, h, Finset.empty_inter]
      · rw [shared, h, Finset.inter_empty]
    tauto
  failure := main_eq_one_iff hbase hhead budget
  success := main_eq_zero_iff hbase hhead budget
  edited base' head' hb hh hshared := by
    rw [main_eq (hb.ne_nil hbase) (hh.ne_nil hhead), main_eq hbase hhead, hshared, hb.total hbase,
      hh.total hhead]
  lowered head' hlowered hsuccess := by
    have hhead' : head' ≠ [] := by
      rintro rfl
      cases hlowered
      exact hhead rfl
    have hshared : shared base head' = shared base head := by
      rw [shared, shared, population_lowered hlowered]
    have htotal : total head' (shared base head) ≤ total head (shared base head) :=
      Finset.sum_le_sum fun nid hnid =>
        fastest_lowered hlowered hhead (Finset.mem_of_mem_inter_right hnid)
    obtain ⟨hcompared, hle⟩ := (main_eq_zero_iff hbase hhead budget).mp hsuccess
    rw [ne_eq, main_eq_two_iff hbase hhead] at hcompared
    rw [main_eq_zero_iff hbase hhead', ne_eq, main_eq_two_iff hbase hhead', hshared]
    exact ⟨hcompared, htotal.trans hle⟩

/-- A round with the tests `t` and `u` and one more. -/
def threeTests (third : String) (time : ℚ) (h : 0 ≤ time) : Round where
  ids := {lit "t", lit "u", lit third}
  time nid := if nid = lit "t" then time else if nid = lit "u" then 1 else 100
  ids_nonempty := Finset.insert_nonempty _ _
  time_nonneg nid _ := by
    split_ifs <;> first | exact h | norm_num

/-- Two rounds before a change, of which the second is the faster one. -/
def baseRounds : List Round := [threeTests "v" 2 (by norm_num), threeTests "v" 1 (by norm_num)]

/-- A round after it, in which `t` takes three times as long and another test is new. -/
def headRounds : List Round := [threeTests "w" 3 (by norm_num)]

/-- The change is refused for `t` and `u`, also when the rounds are exchanged and repeated and the other
tests have other names. -/
theorem slower_fails : DependsOnShared baseRounds headRounds (3 / 10) ∧
    shared baseRounds headRounds = {lit "t", lit "u"} ∧ main baseRounds headRounds (3 / 10) = 1 ∧
    main [threeTests "x" 1 (by norm_num), threeTests "x" 2 (by norm_num)]
      [threeTests "w" 3 (by norm_num), threeTests "w" 3 (by norm_num)] (3 / 10) = 1 := by
  have hdepends : DependsOnShared baseRounds headRounds (3 / 10) :=
    speedGate (List.cons_ne_nil _ _) (List.cons_ne_nil _ _) (3 / 10)
  have hmain : main baseRounds headRounds (3 / 10) = 1 := by decide +kernel
  refine ⟨hdepends, by decide +kernel, hmain, (hdepends.edited _ _ ?_ ?_ ?_).trans hmain⟩
  · -- no duration of `t` and `u` depends on the name of the third test
    exact .trans (.reordered (.swap _ _ []))
      (.outside (.cons (fun _ _ => rfl) (.cons (fun _ _ => rfl) .nil)))
  · exact .repeated List.mem_cons_self
  · decide +kernel

end Ghpulse.Ci
