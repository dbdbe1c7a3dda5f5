import Ghpulse.Library.PyStr

/-!
# Three-valued logic and column domains

Truth values of SQL conditions: a comparison with NULL is unknown, `AND`, `OR` and `NOT` follow Kleene,
and a `CHECK` refuses a row only when its condition is false.
-/

open Python

namespace Sql

/-- A truth value; nothing stands for unknown. -/
abbrev Truth := Option Bool

/-- `AND`. -/
def and : Truth → Truth → Truth
  | some false, _ => some false
  | _, some false => some false
  | some true, some true => some true
  | _, _ => none

/-- `OR`. -/
def or : Truth → Truth → Truth
  | some true, _ => some true
  | _, some true => some true
  | some false, some false => some false
  | _, _ => none

/-- `NOT`. -/
def not (a : Truth) : Truth := a.map Bool.not

/-- A comparison, unknown on a NULL. -/
def compare {α : Type} (p : α → α → Bool) : Option α → Option α → Truth
  | some a, some b => some (p a b)
  | _, _ => none

/-- `=`. -/
def eq {α : Type} [DecidableEq α] : Option α → Option α → Truth := compare fun a b => decide (a = b)

/-- `<>`. -/
def ne {α : Type} [DecidableEq α] (a b : Option α) : Truth := not (eq a b)

/-- `IN` over constants. -/
def isIn {α : Type} [DecidableEq α] (a : Option α) (values : List α) : Truth :=
  a.map fun x => decide (x ∈ values)

/-- `BETWEEN` two constants. -/
def between (a : Option ℕ) (low high : ℕ) : Truth := a.map fun x => decide (low ≤ x ∧ x ≤ high)

/-- `IS NULL`. -/
def isNull {α : Type} (a : Option α) : Truth := some a.isNone

/-- `IS NOT NULL`. -/
def isNotNull {α : Type} (a : Option α) : Truth := some a.isSome

/-- `IS TRUE` and `IS FALSE`. -/
def isBool (a : Option Bool) (b : Bool) : Truth := some (decide (a = some b))

/-- `IS DISTINCT FROM`. -/
def isDistinctFrom {α : Type} [DecidableEq α] (a b : Option α) : Bool := decide (a ≠ b)

/-- A `CHECK` admits every condition that is not false. -/
def admits (a : Truth) : Bool := decide (a ≠ some false)

/-- A `WHERE` keeps the rows whose condition is true. -/
def holds (a : Truth) : Bool := decide (a = some true)

/-- A check admits a conjunction when it admits both parts. -/
@[simp] theorem admits_and (a b : Truth) : admits (and a b) = (admits a && admits b) := by
  rcases a with _ | _ | _ <;> rcases b with _ | _ | _ <;> rfl

/-- It admits a disjunction when it admits one. -/
@[simp] theorem admits_or (a b : Truth) : admits (or a b) = (admits a || admits b) := by
  rcases a with _ | _ | _ <;> rcases b with _ | _ | _ <;> rfl

/-- A known truth value is admitted when it is true. -/
@[simp] theorem admits_some (b : Bool) : admits (some b) = b := by cases b <;> rfl

/-- An unknown one is admitted. -/
@[simp] theorem admits_none : admits none = true := rfl

/-- An equation is admitted for a null, and else when it is true. -/
theorem admits_eq {α : Type} [DecidableEq α] (a : Option α) (b : α) :
    admits (eq a (some b)) = a.all fun x => decide (x = b) := by
  cases a with
  | none => rfl
  | some x => exact admits_some _

/-- So is a membership. -/
theorem admits_isIn {α : Type} [DecidableEq α] (a : Option α) (values : List α) :
    admits (isIn a values) = a.all fun x => decide (x ∈ values) := by
  cases a with
  | none => rfl
  | some x => exact admits_some _

/-- A conjunction holds when both parts do. -/
@[simp] theorem holds_and (a b : Truth) : holds (and a b) = (holds a && holds b) := by
  rcases a with _ | _ | _ <;> rcases b with _ | _ | _ <;> rfl

/-- A known truth value holds when it is true. -/
@[simp] theorem holds_some (b : Bool) : holds (some b) = b := by cases b <;> rfl

/-- A comparison holds of a value that is there. -/
@[simp] theorem holds_compare {α : Type} (p : α → α → Bool) (a : Option α) (b : α) :
    holds (compare p a (some b)) = a.any fun x => p x b := by
  cases a with
  | none => rfl
  | some x => exact holds_some _

/-- An equation holds of the value alone. -/
@[simp] theorem holds_eq {α : Type} [DecidableEq α] (a : Option α) (b : α) :
    holds (eq a (some b)) = decide (a = some b) := by
  rw [eq, holds_compare]
  cases a <;> simp

/-- So does `IS TRUE` or `IS FALSE`. -/
@[simp] theorem holds_isBool (a : Option Bool) (b : Bool) :
    holds (isBool a b) = decide (a = some b) := holds_some _

/-- `IS NOT NULL` holds of every value. -/
@[simp] theorem holds_isNotNull {α : Type} (a : Option α) : holds (isNotNull a) = a.isSome :=
  holds_some _

/-! ## Column domains

What a column of a type can hold.
-/

/-- `INTEGER`. -/
def fitsInteger (z : ℤ) : Bool := decide (-2 ^ 31 ≤ z ∧ z ≤ 2 ^ 31 - 1)

/-- `BIGINT`. -/
def fitsBigint (z : ℤ) : Bool := decide (-2 ^ 63 ≤ z ∧ z ≤ 2 ^ 63 - 1)

/-- `TEXT`: text that can be encoded and has no `U+0000`. -/
def storable (s : Str) : Bool := encodable s && s.all fun c => decide (c.val ≠ 0)

/-- `btrim(s)`: spaces are removed from both ends. -/
def btrim (s : Str) : Str := trim (fun c => decide (c = cp ' ')) s

/-- Text that is not blank for Python is not blank for `btrim`. -/
theorem btrim_ne_nil {s : Str} (h : strip s ≠ []) : btrim s ≠ [] := by
  intro hnil
  refine h (trim_eq_nil_iff.mpr fun c hc => ?_)
  have hspace : c = cp ' ' := of_decide_eq_true (trim_eq_nil_iff.mp hnil c hc)
  rw [hspace]
  decide

end Sql
