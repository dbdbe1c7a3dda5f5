import Mathlib.Data.Rat.Defs
import Mathlib.Algebra.Order.Ring.Rat
import Mathlib.Logic.Function.Basic

/-!
# The response cache

Times are rational seconds, and a clock that jumps is allowed: nothing below assumes that `now` grows. An
item is kept until it is looked up after its time to live, replaced, or cleared; an invalidation only
makes it old. The lemmas say of each method which items, and which generation, it leaves.

Reference: `backend/cache.py`, class `_TTLCache`.

Each method of the class takes `_guard` for its whole body, so a method is one atomic operation on
the cache. `time.time()` is a parameter of the methods that read it. `_items` is a finite dictionary
in the source; here it is the function that looks a key up.
-/

namespace Ghpulse.Cache

variable {κ ν : Type}

/-- One tuple `(value, ts, generation)` of `_items`. -/
structure Item (ν : Type) where
  value : ν
  ts : ℚ
  generation : ℕ

/-- `_TTLCache`: a flat TTL and a generation counter that marks older entries stale. -/
structure TTLCache (κ ν : Type) where
  ttlSeconds : ℚ
  items : κ → Option (Item ν)
  generation : ℕ

namespace TTLCache

/-- `_TTLCache(ttl_seconds)`. -/
def new (ttlSeconds : ℚ) : TTLCache κ ν := ⟨ttlSeconds, fun _ => none, 0⟩

variable [DecidableEq κ]

/-- `get_entry`: `(value, is_stale)`, or nothing on a miss; an expired item is popped. -/
def getEntry (c : TTLCache κ ν) (now : ℚ) (key : κ) : Option (ν × Bool) × TTLCache κ ν :=
  match c.items key with
  | none => (none, c)
  | some item =>
    -- an item is still served when it is exactly as old as the time to live
    if now - item.ts > c.ttlSeconds then
      (none, { c with items := Function.update c.items key none })
    else (some (item.value, decide (item.generation ≠ c.generation)), c)

/-- `get`: the cached value without its staleness bit. -/
def get (c : TTLCache κ ν) (now : ℚ) (key : κ) : Option ν × TTLCache κ ν :=
  ((c.getEntry now key).1.map Prod.fst, (c.getEntry now key).2)

/-- `put`: store one value with the *current* generation. -/
def put (c : TTLCache κ ν) (now : ℚ) (key : κ) (value : ν) : TTLCache κ ν :=
  { c with items := Function.update c.items key (some ⟨value, now, c.generation⟩) }

/-- `invalidate`: every entry becomes stale, none is dropped. -/
def invalidate (c : TTLCache κ ν) : TTLCache κ ν := { c with generation := c.generation + 1 }

/-- `put_if_generation`: publish only when no invalidation happened since `generation` was read. -/
def putIfGeneration (c : TTLCache κ ν) (now : ℚ) (key : κ) (value : ν) (generation : ℕ) :
    TTLCache κ ν × Bool :=
  if generation ≠ c.generation then (c, false) else (c.put now key value, true)

/-- `clear`: drop all entries and advance the generation. -/
def clear (c : TTLCache κ ν) : TTLCache κ ν :=
  { c with items := fun _ => none, generation := c.generation + 1 }

/-! ## What the methods leave

Two groups: the generation, which only an invalidation or `clear` moves, and the items, of which a method
adds at most one and removes at most one. Later modules use these and never unfold a method.
-/

/-- Storing leaves the generation. -/
@[simp] theorem generation_put (c : TTLCache κ ν) (now : ℚ) (key : κ) (value : ν) :
    (c.put now key value).generation = c.generation := rfl

omit [DecidableEq κ] in
/-- An invalidation begins the next generation. -/
@[simp] theorem generation_invalidate (c : TTLCache κ ν) :
    c.invalidate.generation = c.generation + 1 := rfl

omit [DecidableEq κ] in
/-- It drops no entry. -/
@[simp] theorem items_invalidate (c : TTLCache κ ν) : c.invalidate.items = c.items := rfl

omit [DecidableEq κ] in
/-- Clearing begins the next generation. -/
@[simp] theorem generation_clear (c : TTLCache κ ν) : c.clear.generation = c.generation + 1 := rfl

omit [DecidableEq κ] in
/-- It drops every entry. -/
@[simp] theorem items_clear (c : TTLCache κ ν) (key : κ) : c.clear.items key = none := rfl

/-- Publishing leaves the generation. -/
@[simp] theorem generation_putIfGeneration (c : TTLCache κ ν) (now : ℚ) (key : κ) (value : ν)
    (generation : ℕ) : (c.putIfGeneration now key value generation).1.generation = c.generation := by
  unfold putIfGeneration
  split <;> rfl

/-- Looking up leaves the generation. -/
@[simp] theorem generation_getEntry (c : TTLCache κ ν) (now : ℚ) (key : κ) :
    (c.getEntry now key).2.generation = c.generation := by
  unfold getEntry
  split
  · rfl
  · split <;> rfl

/-- An item found after a `put` is the stored one or was there before. -/
theorem items_put {c : TTLCache κ ν} {now : ℚ} {key k : κ} {value : ν} {i : Item ν}
    (h : (c.put now key value).items k = some i) :
    i = ⟨value, now, c.generation⟩ ∨ c.items k = some i := by
  simp only [put, Function.update_apply] at h
  split at h
  · exact Or.inl (Option.some.inj h).symm
  · exact Or.inr h

/-- `get_entry` never adds an item. -/
theorem items_getEntry {c : TTLCache κ ν} {now : ℚ} {key k : κ} {i : Item ν}
    (h : (c.getEntry now key).2.items k = some i) : c.items k = some i := by
  unfold getEntry at h
  split at h
  · exact h
  · split at h
    · simp only [Function.update_apply] at h
      split at h
      · cases h
      · exact h
    · exact h

/-- A hit comes from a stored item; it is reported stale exactly when its generation is old. -/
theorem item_of_getEntry {c : TTLCache κ ν} {now : ℚ} {key : κ} {value : ν} {stale : Bool}
    (h : (c.getEntry now key).1 = some (value, stale)) :
    ∃ i, c.items key = some i ∧ i.value = value ∧ stale = decide (i.generation ≠ c.generation) := by
  unfold getEntry at h
  split at h
  · cases h
  · rename_i item hitem
    split at h
    · cases h
    · simp only [Option.some.injEq, Prod.mk.injEq] at h
      exact ⟨item, hitem, h.1, h.2.symm⟩

/-- A key without an entry is a miss. -/
theorem getEntry_of_none {c : TTLCache κ ν} {key : κ} (h : c.items key = none) (now : ℚ) :
    c.getEntry now key = (none, c) := by
  simp only [getEntry, h]

/-- An item that has not expired is found. -/
theorem getEntry_of_le {c : TTLCache κ ν} {key : κ} {i : Item ν} (h : c.items key = some i) {now : ℚ}
    (hle : now - i.ts ≤ c.ttlSeconds) :
    c.getEntry now key = (some (i.value, decide (i.generation ≠ c.generation)), c) := by
  simp only [getEntry, h, if_neg (not_lt.mpr hle)]

/-- `get_entry` leaves the other keys alone. -/
theorem items_getEntry_of_ne {key k : κ} (h : k ≠ key) (c : TTLCache κ ν) (now : ℚ) :
    (c.getEntry now key).2.items k = c.items k := by
  unfold getEntry
  split
  · rfl
  · split
    · exact Function.update_of_ne h none c.items
    · rfl

/-- Storing leaves the entries of other keys. -/
theorem items_put_of_ne {key k : κ} (h : k ≠ key) (c : TTLCache κ ν) (now : ℚ) (value : ν) :
    (c.put now key value).items k = c.items k := Function.update_of_ne h _ c.items

/-- What is stored is the entry of its key. -/
theorem items_put_self (c : TTLCache κ ν) (now : ℚ) (key : κ) (value : ν) :
    (c.put now key value).items key = some ⟨value, now, c.generation⟩ :=
  Function.update_self key _ c.items

/-- Publishing leaves the entries of other keys. -/
theorem items_putIfGeneration_of_ne {key k : κ} (h : k ≠ key) (c : TTLCache κ ν) (now : ℚ) (value : ν)
    (generation : ℕ) : (c.putIfGeneration now key value generation).1.items k = c.items k := by
  unfold putIfGeneration
  split
  · rfl
  · exact items_put_of_ne h c now value

/-- The value just put is found again, and is reported current, while the clock stands still. -/
theorem getEntry_put {c : TTLCache κ ν} (httl : 0 ≤ c.ttlSeconds) (now : ℚ) (key : κ) (value : ν) :
    ((c.put now key value).getEntry now key).1 = some (value, false) := by
  simp [getEntry, put, not_lt.mpr httl]

end TTLCache

end Ghpulse.Cache
