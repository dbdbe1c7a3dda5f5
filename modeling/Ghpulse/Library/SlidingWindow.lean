import Ghpulse.Library.Runs
import Mathlib.Algebra.Order.Group.Defs
import Mathlib.Algebra.Order.Group.Unbundled.Basic
import Mathlib.Data.List.Induction

/-!
# Sliding windows

Time stamps of which only those count that are less than a width old. A log can be pruned at any time
without changing what counts later. A limiter asks first and records later, so an entry is admitted by
what counted when it asked; `length_filter_le` bounds the entries of every window all the same, wherever
between its question and its record an entry is dated.
-/

namespace SlidingWindow

variable {α : Type*} [AddCommGroup α] [LinearOrder α] {width now later : α}

/-! ## What counts

A time stamp counts strictly less than the width after it was taken.
-/

/-- The time stamps that are less than `width` old. -/
def recent (width now : α) (times : List α) : List α := times.filter fun t => decide (now - t < width)

theorem recent_append (a b : List α) :
    recent width now (a ++ b) = recent width now a ++ recent width now b := List.filter_append a b

variable [IsOrderedAddMonoid α]

/-- Pruning forgets nothing that counts later. -/
theorem recent_recent (h : now ≤ later) (times : List α) :
    recent width later (recent width now times) = recent width later times := by
  unfold recent
  rw [List.filter_filter]
  apply List.filter_congr
  intro t _
  have hlater : later - t < width → now - t < width := (sub_le_sub_right h t).trans_lt
  rw [← Bool.decide_and]
  exact decide_eq_decide.mpr (and_iff_left_of_imp hlater)

/-! ## The bound

The last entry of a window was admitted by a question that came before it, and at which fewer than the
maximum counted; every other entry of the window was counted then.
-/

variable {ε : Type*} {asked recorded : ε → α} {max : ℕ}

/-- An entry may follow others if they were recorded before it asked, and fewer than `max` counted
then. -/
def Admits (width : α) (max : ℕ) (asked recorded : ε → α) (before : List ε) (e : ε) : Prop :=
  (∀ e' ∈ before, recorded e' ≤ asked e) ∧ (recent width (asked e) (before.map recorded)).length < max

/-- No window that is shorter than the width contains more than `max` entries. -/
theorem length_filter_le {log : List ε} (hlog : Runs.Lawful (Admits width max asked recorded) log)
    {date : ε → α} (hasked : ∀ e ∈ log, asked e ≤ date e) (hrecorded : ∀ e ∈ log, date e ≤ recorded e)
    {window : α → Bool} (hwindow : ∀ s t, window s = true → window t = true → t - s < width) :
    (log.filter fun e => window (date e)).length ≤ max := by
  induction log using List.reverseRecOn with
  | nil => exact Nat.zero_le max
  | append_singleton log e ih =>
    obtain ⟨hlog, -, hadmitted⟩ := Runs.lawful_concat.mp hlog
    have hmem {e' : ε} (h : e' ∈ log) : e' ∈ log ++ [e] := List.mem_append_left _ h
    have hself : e ∈ log ++ [e] := List.mem_append_right _ (List.mem_singleton_self e)
    rw [List.filter_append]
    by_cases he : window (date e) = true
    · -- an entry of the window that came before still counted when `e` asked
      have hcounted : (log.filter fun e' => window (date e')).length ≤
          (recent width (asked e) (log.map recorded)).length := by
        rw [recent, List.filter_map, List.length_map, ← List.countP_eq_length_filter,
          ← List.countP_eq_length_filter]
        apply List.countP_mono_left
        intro e' hin he'
        rw [Function.comp_apply, decide_eq_true_iff]
        calc asked e - recorded e' ≤ date e - date e' :=
              sub_le_sub (hasked e hself) (hrecorded e' (hmem hin))
          _ < width := hwindow _ _ he' he
      have hlast : [e].filter (fun e => window (date e)) = [e] := by simp [he]
      rw [hlast, List.length_append, List.length_singleton]
      omega
    · have hlast : [e].filter (fun e => window (date e)) = [] := by simp [he]
      rw [hlast, List.append_nil]
      exact ih hlog (fun e' h => hasked e' (hmem h)) fun e' h => hrecorded e' (hmem h)

end SlidingWindow
