import Mathlib.Data.List.Nodup
import Mathlib.Data.List.Count
import Mathlib.Data.List.Perm.Basic

/-!
# Tables with a primary key

A table is a list of rows with distinct keys that all satisfy the declared row constraints, so an
ill-formed table cannot be built: the operations below are refused where the database would refuse
them. `find` reads a table as a partial function of the key, and each operation is described by what it
does to `find`, so that clients never look at the list.
-/

namespace Keyed

/-- What a table declares about its rows. -/
structure Decl (κ ρ : Type) where
  /-- The primary key of a row. -/
  key : ρ → κ
  /-- Whether a row satisfies every row constraint. -/
  check : ρ → Bool

/-- A table: rows with distinct keys that satisfy the row constraints. -/
structure Table {κ ρ : Type} (d : Decl κ ρ) where
  rows : List ρ
  nodup : (rows.map d.key).Nodup
  checked : ∀ r ∈ rows, d.check r = true

/-- What `ON CONFLICT (key) DO UPDATE SET … WHERE …` does with a stored and a proposed row. -/
structure OnConflict {κ ρ : Type} (d : Decl κ ρ) where
  /-- The updated row. -/
  set : ρ → ρ → ρ
  /-- The condition under which the stored row is updated. -/
  differs : ρ → ρ → Bool
  key_set : ∀ old new, d.key (set old new) = d.key old

namespace Table

variable {κ ρ : Type} {d : Decl κ ρ}

/-- The table without rows. -/
def empty : Table d := ⟨[], List.nodup_nil, fun _ h => absurd h List.not_mem_nil⟩

variable [DecidableEq κ]

/-- The row with a key. -/
def find (t : Table d) (k : κ) : Option ρ := t.rows.find? fun r => decide (d.key r = k)

/-- A row is found by its key alone. -/
theorem find_eq_some {t : Table d} {k : κ} {r : ρ} :
    t.find k = some r ↔ r ∈ t.rows ∧ d.key r = k := by
  constructor
  · intro h
    exact ⟨List.mem_of_find?_eq_some h, by simpa using List.find?_some h⟩
  · rintro ⟨hr, rfl⟩
    obtain ⟨r', hr'⟩ : ∃ r', t.find (d.key r) = some r' := by
      rw [← Option.isSome_iff_exists, find, List.find?_isSome]
      exact ⟨r, hr, by simp⟩
    have hmem : r' ∈ t.rows := List.mem_of_find?_eq_some hr'
    have hkey : d.key r' = d.key r := by simpa using List.find?_some hr'
    rw [hr', List.inj_on_of_nodup_map t.nodup hmem hr hkey]

/-- A key is not found when no row has it. -/
theorem find_eq_none {t : Table d} {k : κ} : t.find k = none ↔ ∀ r ∈ t.rows, d.key r ≠ k := by
  simp [find, List.find?_eq_none]

/-- A row of the table is found under its key. -/
theorem find_of_mem {t : Table d} {r : ρ} (h : r ∈ t.rows) : t.find (d.key r) = some r :=
  find_eq_some.mpr ⟨h, rfl⟩

/-- Exactly one row has a stored key. -/
theorem countP_key {t : Table d} {k : κ} (h : (t.find k).isSome = true) :
    (t.rows.countP fun r => decide (d.key r = k)) = 1 := by
  obtain ⟨r, hr⟩ := Option.isSome_iff_exists.mp h
  obtain ⟨hmem, rfl⟩ := find_eq_some.mp hr
  have hcount := List.count_eq_one_of_mem t.nodup (List.mem_map_of_mem hmem)
  rw [List.count_eq_countP, List.countP_map] at hcount
  refine Eq.trans (List.countP_congr fun x _ => ?_) hcount
  simp

/-- Nothing is found in an empty table. -/
@[simp] theorem find_empty (k : κ) : (empty : Table d).find k = none := rfl

/-- Two tables that agree at a key hold the same row there. -/
theorem find_congr {t t' : Table d} {k : κ}
    (h : ∀ r, d.key r = k → (r ∈ t'.rows ↔ r ∈ t.rows)) : t'.find k = t.find k := by
  ext r
  rw [find_eq_some, find_eq_some]
  constructor
  · rintro ⟨hr, hk⟩
    exact ⟨(h r hk).mp hr, hk⟩
  · rintro ⟨hr, hk⟩
    exact ⟨(h r hk).mpr hr, hk⟩

/-! ## The statements

An insert, an update and an upsert return the new table, or nothing where a row would break a check or a
key; a deletion always succeeds.
-/

/-- `INSERT`; refused for a stored key and for a row that breaks a constraint. -/
def insert (t : Table d) (new : ρ) : Option (Table d) :=
  if h : d.check new = true ∧ ∀ r ∈ t.rows, d.key r ≠ d.key new then
    some
      { rows := t.rows ++ [new]
        nodup := by
          rw [List.map_append, List.nodup_append]
          refine ⟨t.nodup, List.nodup_singleton _, ?_⟩
          intro k hk k' hk'
          obtain ⟨r, hr, rfl⟩ := List.mem_map.mp hk
          obtain rfl : k' = d.key new := by simpa using hk'
          exact h.2 r hr
        checked := by
          intro r hr
          rcases List.mem_append.mp hr with hr | hr
          · exact t.checked r hr
          · exact List.mem_singleton.mp hr ▸ h.1 }
  else none

/-- `UPDATE … SET`, as a function of the row that keeps the key; refused when a row breaks a
constraint. -/
def update (t : Table d) (f : ρ → ρ) (hkey : ∀ r, d.key (f r) = d.key r) : Option (Table d) :=
  if h : ∀ r ∈ t.rows, d.check (f r) = true then
    some
      { rows := t.rows.map f
        nodup := by
          have hmap : (t.rows.map f).map d.key = t.rows.map d.key := by
            rw [List.map_map]
            exact List.map_congr_left fun r _ => hkey r
          exact hmap ▸ t.nodup
        checked := by
          intro r hr
          obtain ⟨r', hr', rfl⟩ := List.mem_map.mp hr
          exact h r' hr' }
  else none

/-- Rewrite the row with a key. -/
def setAt (k : κ) (f : ρ → ρ) (r : ρ) : ρ := if d.key r = k then f r else r

/-- Setting the row of a key keeps the keys. -/
theorem key_setAt {k : κ} {f : ρ → ρ} (hf : ∀ r, d.key (f r) = d.key r) (r : ρ) :
    d.key (setAt (d := d) k f r) = d.key r := by
  unfold setAt
  split_ifs
  · exact hf r
  · rfl

/-- `INSERT … ON CONFLICT DO UPDATE … WHERE … RETURNING`: the table and whether a row came back. The
constraints are checked on the proposed row before the conflict is looked for. -/
def upsert (t : Table d) (c : OnConflict d) (new : ρ) : Option (Table d × Bool) :=
  if d.check new = true then
    match t.find (d.key new) with
    | none => (t.insert new).map fun t' => (t', true)
    | some old =>
      if c.differs old new then
        (t.update (setAt (d.key new) fun r => c.set r new)
          (key_setAt fun r => c.key_set r new)).map fun t' => (t', true)
      else some (t, false)
  else none

/-- `DELETE … WHERE`: the remaining rows. -/
def delete (t : Table d) (p : ρ → Bool) : Table d where
  rows := t.rows.filter fun r => !p r
  nodup := t.nodup.sublist (List.filter_sublist.map d.key)
  checked := fun r hr => t.checked r (List.mem_of_mem_filter hr)

/-! ## What the statements do

In terms of `find`. The lemma about an upsert is the one that clients use: the merged row under the key of
the proposed one, and every other row as before.
-/

/-- After an insert the new row is found, and every other one as before. -/
theorem find_insert {t t' : Table d} {new : ρ} (h : t.insert new = some t') (k : κ) :
    t'.find k = if k = d.key new then some new else t.find k := by
  unfold insert at h
  split_ifs at h with hnew
  cases h
  by_cases hk : k = d.key new
  · subst hk
    rw [if_pos rfl, find_eq_some]
    exact ⟨List.mem_append_right _ (List.mem_singleton_self new), rfl⟩
  · rw [if_neg hk]
    refine find_congr fun r hr => ?_
    rw [List.mem_append, List.mem_singleton, or_iff_left_iff_imp]
    rintro rfl
    exact absurd hr.symm hk

omit [DecidableEq κ] in
/-- An update changes every row. -/
theorem rows_update {t t' : Table d} {f : ρ → ρ} {hkey : ∀ r, d.key (f r) = d.key r}
    (h : t.update f hkey = some t') : t'.rows = t.rows.map f := by
  unfold update at h
  split_ifs at h
  cases h
  rfl

/-- An insert appends the row. -/
theorem rows_insert {t t' : Table d} {new : ρ} (h : t.insert new = some t') :
    t'.rows = t.rows ++ [new] := by
  unfold insert at h
  split_ifs at h
  cases h
  rfl

/-- After an update each row is found changed. -/
theorem find_update {t t' : Table d} {f : ρ → ρ} {hkey : ∀ r, d.key (f r) = d.key r}
    (h : t.update f hkey = some t') (k : κ) : t'.find k = (t.find k).map f := by
  unfold update at h
  split_ifs at h
  cases h
  cases hk : t.find k with
  | none =>
    rw [find_eq_none] at hk
    rw [Option.map_none, find_eq_none]
    intro r hr
    obtain ⟨r', hr', rfl⟩ := List.mem_map.mp hr
    exact hkey r' ▸ hk r' hr'
  | some r =>
    rw [find_eq_some] at hk
    exact find_eq_some.mpr ⟨List.mem_map_of_mem hk.1, (hkey r).trans hk.2⟩

/-- After a delete the rows that remain are found as before. -/
theorem find_delete (t : Table d) (p : ρ → Bool) (k : κ) :
    (t.delete p).find k = (t.find k).filter fun r => !p r := by
  ext r
  rw [Option.filter_eq_some_iff, find_eq_some, find_eq_some, delete, List.mem_filter]
  tauto

/-- The row an upsert leaves under the key of the proposed row. -/
def merged (c : OnConflict d) (old : Option ρ) (new : ρ) : ρ :=
  match old with
  | none => new
  | some old => if c.differs old new then c.set old new else old

/-- Whether an upsert writes a row. -/
def writes (c : OnConflict d) (old : Option ρ) (new : ρ) : Bool :=
  match old with
  | none => true
  | some old => c.differs old new

/-- What an upsert can do: insert the proposed row, update the stored one, or leave the table. -/
theorem upsert_cases {t t' : Table d} {c : OnConflict d} {new : ρ} {flag : Bool}
    (h : t.upsert c new = some (t', flag)) :
    (t.find (d.key new) = none ∧ t.insert new = some t' ∧ flag = true) ∨
      (∃ old, t.find (d.key new) = some old ∧ c.differs old new = true ∧
        t.update (setAt (d.key new) fun r => c.set r new) (key_setAt fun r => c.key_set r new) = some t' ∧
          flag = true) ∨
      ∃ old, t.find (d.key new) = some old ∧ c.differs old new = false ∧ t' = t ∧ flag = false := by
  unfold upsert at h
  split_ifs at h
  cases hold : t.find (d.key new) with
  | none =>
    rw [hold] at h
    obtain ⟨t'', ht, heq⟩ := Option.map_eq_some_iff.mp h
    cases heq
    exact Or.inl ⟨rfl, ht, rfl⟩
  | some old =>
    rw [hold] at h
    by_cases hdiff : c.differs old new = true
    · simp only [if_pos hdiff] at h
      obtain ⟨t'', ht, heq⟩ := Option.map_eq_some_iff.mp h
      cases heq
      exact Or.inr (Or.inl ⟨old, rfl, hdiff, ht, rfl⟩)
    · simp only [if_neg hdiff] at h
      cases h
      exact Or.inr (Or.inr ⟨old, rfl, Bool.eq_false_iff.mpr hdiff, rfl, rfl⟩)

/-- After an upsert the merged row is found, and every other one as before. -/
theorem find_upsert {t t' : Table d} {c : OnConflict d} {new : ρ} {flag : Bool}
    (h : t.upsert c new = some (t', flag)) (k : κ) :
    t'.find k = if k = d.key new then some (merged c (t.find (d.key new)) new) else t.find k := by
  obtain ⟨hold, hinsert, -⟩ | ⟨old, hold, hdiff, hupdate, -⟩ | ⟨old, hold, hdiff, rfl, -⟩ :=
    upsert_cases h
  · rw [hold]
    exact find_insert hinsert k
  · rw [hold, merged, if_pos hdiff, find_update hupdate k]
    by_cases hk : k = d.key new
    · subst hk
      rw [if_pos rfl, hold, Option.map_some, setAt, if_pos (find_eq_some.mp hold).2]
    · rw [if_neg hk]
      cases hfind : t.find k with
      | none => rfl
      | some r =>
        have hr : d.key r ≠ d.key new := fun heq => hk ((find_eq_some.mp hfind).2.symm.trans heq)
        rw [Option.map_some, setAt, if_neg hr]
  · rw [hold, merged, hdiff, if_neg Bool.false_ne_true]
    by_cases hk : k = d.key new
    · rw [if_pos hk, hk, hold]
    · rw [if_neg hk]

/-- An upsert that returns no row leaves the table as it is. -/
theorem eq_of_upsert_false {t t' : Table d} {c : OnConflict d} {new : ρ}
    (h : t.upsert c new = some (t', false)) : t' = t := by
  obtain ⟨-, -, hflag⟩ | ⟨-, -, -, -, hflag⟩ | ⟨-, -, -, heq, -⟩ := upsert_cases h
  · cases hflag
  · cases hflag
  · exact heq

/-- The rows are what is found. -/
theorem mem_rows_iff {t : Table d} {r : ρ} : r ∈ t.rows ↔ t.find (d.key r) = some r := by
  rw [find_eq_some]
  tauto

/-- An upsert forgets no key. -/
theorem isSome_find_upsert {t t' : Table d} {c : OnConflict d} {new : ρ} {flag : Bool}
    (h : t.upsert c new = some (t', flag)) {k : κ} (hk : (t.find k).isSome = true) :
    (t'.find k).isSome = true := by
  rw [find_upsert h]
  split_ifs
  · rfl
  · exact hk

/-- A row after an upsert was there before or is the merged row. -/
theorem mem_rows_upsert {t t' : Table d} {c : OnConflict d} {new r : ρ} {flag : Bool}
    (h : t.upsert c new = some (t', flag)) (hr : r ∈ t'.rows) :
    r ∈ t.rows ∨ r = merged c (t.find (d.key new)) new := by
  rw [mem_rows_iff, find_upsert h] at hr
  split_ifs at hr with hk
  · exact Or.inr (Option.some.inj hr).symm
  · exact Or.inl (mem_rows_iff.mpr hr)

/-- An upsert counts exactly the rows that it writes. -/
theorem flag_upsert {t t' : Table d} {c : OnConflict d} {new : ρ} {flag : Bool}
    (h : t.upsert c new = some (t', flag)) : flag = writes c (t.find (d.key new)) new := by
  obtain ⟨hold, -, rfl⟩ | ⟨old, hold, hdiff, -, rfl⟩ | ⟨old, hold, hdiff, -, rfl⟩ := upsert_cases h
  · rw [hold, writes]
  · rw [hold, writes, hdiff]
  · rw [hold, writes, hdiff]

/-! ## When a statement is executed

Only the rows that are written are checked, and only an insert can meet a key that is taken; an upsert
cannot, and its proposed row is all that it depends on.
-/

/-- An insert succeeds for a row that the checks admit and whose key is new. -/
theorem insert_isSome {t : Table d} {new : ρ} :
    (t.insert new).isSome = true ↔ d.check new = true ∧ ∀ r ∈ t.rows, d.key r ≠ d.key new := by
  unfold insert
  split_ifs with h
  · exact iff_of_true rfl h
  · exact iff_of_false Bool.false_ne_true h

omit [DecidableEq κ] in
/-- An update succeeds when the checks admit every changed row. -/
theorem update_isSome {t : Table d} {f : ρ → ρ} {hkey : ∀ r, d.key (f r) = d.key r} :
    (t.update f hkey).isSome = true ↔ ∀ r ∈ t.rows, d.check (f r) = true := by
  unfold update
  split_ifs with h
  · exact iff_of_true rfl h
  · exact iff_of_false Bool.false_ne_true h

/-- An upsert is executed exactly when the proposed row meets the constraints, provided an updated row
then meets them too. -/
theorem upsert_isSome {t : Table d} {c : OnConflict d} {new : ρ}
    (hset : ∀ old, d.key old = d.key new → d.check new = true → d.check (c.set old new) = true) :
    (t.upsert c new).isSome = true ↔ d.check new = true := by
  unfold upsert
  split_ifs with hcheck
  · refine iff_of_true ?_ hcheck
    cases hold : t.find (d.key new) with
    | none =>
      have hinsert : d.check new = true ∧ ∀ r ∈ t.rows, d.key r ≠ d.key new :=
        ⟨hcheck, find_eq_none.mp hold⟩
      dsimp only
      rw [insert, dif_pos hinsert]
      rfl
    | some old =>
      dsimp only
      split_ifs
      · rw [Option.isSome_map, update_isSome]
        intro r hr
        unfold setAt
        split_ifs with hkey
        · exact hset r hkey hcheck
        · exact t.checked r hr
      · rfl
  · exact iff_of_false Bool.false_ne_true hcheck

/-! ## Counting rows

For classes of keys: neither an update nor an upsert elsewhere changes how many rows are in a class.
-/

omit [DecidableEq κ] in
/-- An update leaves how many keys have a property. -/
theorem countP_update {t t' : Table d} {f : ρ → ρ} {hkey : ∀ r, d.key (f r) = d.key r}
    (h : t.update f hkey = some t') (q : κ → Bool) :
    t'.rows.countP (fun r => q (d.key r)) = t.rows.countP fun r => q (d.key r) := by
  unfold update at h
  split_ifs at h
  cases h
  rw [List.countP_map]
  refine List.countP_congr fun r _ => ?_
  rw [Function.comp_apply, hkey]

/-- An upsert does not change how many rows have a key of a class that the proposed key is not in. -/
theorem countP_upsert {t t' : Table d} {c : OnConflict d} {new : ρ} {flag : Bool}
    (h : t.upsert c new = some (t', flag)) {q : κ → Bool} (hq : q (d.key new) = false) :
    t'.rows.countP (fun r => q (d.key r)) = t.rows.countP fun r => q (d.key r) := by
  obtain ⟨-, hinsert, -⟩ | ⟨-, -, -, hupdate, -⟩ | ⟨-, -, -, rfl, -⟩ := upsert_cases h
  · rw [rows_insert hinsert, List.countP_append, List.countP_singleton, hq, if_neg Bool.false_ne_true,
      Nat.add_zero]
  · exact countP_update hupdate q
  · rfl

end Table

/-! ## A loop of upserts

The state may be larger than the table, and the statements may raise for other reasons; `view` reads the
table off the state. Over rows with distinct keys the order of the loop does not matter.
-/

section Loop

variable {α σ ε κ ρ : Type}

/-- Run one upsert for each record, in order, and count how many of them returned a row. -/
def upsertAll (exec : ℕ → α → σ → Except ε (σ × Bool)) : ℕ → List α → σ → Except ε (σ × ℕ)
  | _, [], s => .ok (s, 0)
  | i, a :: as, s =>
    match exec i a s with
    | .error e => .error e
    | .ok (s', changed) =>
      match upsertAll exec (i + 1) as s' with
      | .error e => .error e
      | .ok (s'', n) => .ok (s'', n + changed.toNat)

/-- A loop of upserts executes the first and then the rest, and adds up the writes. -/
theorem upsertAll_cons {exec : ℕ → α → σ → Except ε (σ × Bool)} {i : ℕ} {a : α} {as : List α}
    {s s'' : σ} {n : ℕ} :
    upsertAll exec i (a :: as) s = .ok (s'', n) ↔ ∃ s' changed m, exec i a s = .ok (s', changed) ∧
      upsertAll exec (i + 1) as s' = .ok (s'', m) ∧ n = m + changed.toNat := by
  rw [upsertAll]
  constructor
  · intro h
    split at h
    · cases h
    · rename_i s' changed ha
      split at h
      · cases h
      · rename_i m hrest
        cases h
        exact ⟨s', changed, m, ha, hrest, rfl⟩
  · rintro ⟨s', changed, m, ha, hrest, rfl⟩
    rw [ha]
    simp only [hrest]

/-- A loop preserves what each of its statements preserves. -/
theorem upsertAll_preserves {exec : ℕ → α → σ → Except ε (σ × Bool)} {R : σ → σ → Prop}
    (hrefl : ∀ s, R s s) (htrans : ∀ s₁ s₂ s₃, R s₁ s₂ → R s₂ s₃ → R s₁ s₃)
    (hexec : ∀ i a s s' changed, exec i a s = .ok (s', changed) → R s s')
    {i : ℕ} {as : List α} {s s' : σ} {n : ℕ} (h : upsertAll exec i as s = .ok (s', n)) : R s s' := by
  induction as generalizing i s n with
  | nil =>
    cases h
    exact hrefl _
  | cons a as ih =>
    obtain ⟨s₁, changed, m, ha, has, -⟩ := upsertAll_cons.mp h
    exact htrans _ s₁ s' (hexec i a _ s₁ changed ha) (ih has)

/-- A loop returns exactly when each of its statements can be executed, provided that what this depends
on is preserved. -/
theorem upsertAll_returns_iff {exec : ℕ → α → σ → Except ε (σ × Bool)} {I : σ → Prop} {P : α → Prop}
    (hkeep : ∀ i a s s' changed, I s → exec i a s = .ok (s', changed) → I s') {as : List α}
    (hexec : ∀ a ∈ as, ∀ i s, I s → ((∃ out, exec i a s = .ok out) ↔ P a)) {i : ℕ} {s : σ}
    (hs : I s) : (∃ out, upsertAll exec i as s = .ok out) ↔ ∀ a ∈ as, P a := by
  induction as generalizing i s with
  | nil => exact iff_of_true ⟨(s, 0), rfl⟩ fun a ha => absurd ha List.not_mem_nil
  | cons a as ih =>
    rw [List.forall_mem_cons, ← hexec a List.mem_cons_self i s hs]
    have hrest {s' : σ} (hs' : I s') : (∃ out, upsertAll exec (i + 1) as s' = .ok out) ↔
        ∀ b ∈ as, P b := ih (fun b hb => hexec b (List.mem_cons_of_mem a hb)) hs'
    constructor
    · rintro ⟨⟨s'', n⟩, h⟩
      obtain ⟨s', changed, m, ha, has, -⟩ := upsertAll_cons.mp h
      exact ⟨⟨_, ha⟩, (hrest (hkeep i a s s' changed hs ha)).mp ⟨_, has⟩⟩
    · rintro ⟨⟨⟨s', changed⟩, ha⟩, has⟩
      obtain ⟨⟨s'', m⟩, h⟩ := (hrest (hkeep i a s s' changed hs ha)).mpr has
      exact ⟨_, upsertAll_cons.mpr ⟨s', changed, m, ha, h, rfl⟩⟩

variable [DecidableEq κ] {d : Decl κ ρ}

/-- The proposed row with a key. -/
def lookup (d : Decl κ ρ) (rows : List ρ) (k : κ) : Option ρ :=
  rows.find? fun r => decide (d.key r = k)

/-- The rows of a loop, as the table each key is looked up in afterwards. -/
def overlay (c : OnConflict d) (rows : List ρ) (old : κ → Option ρ) (k : κ) : Option ρ :=
  match lookup d rows k with
  | some r => some (Table.merged c (old k) r)
  | none => old k

/-- What a loop of upserts over rows with distinct keys leaves: every key of the rows holds its merged
row, every other key what it held, and the count is the number of rows that were absent or differed
before the loop. -/
theorem upsertAll_spec {exec : ℕ → α → σ → Except ε (σ × Bool)} {view : σ → Table d}
    {c : OnConflict d} {toRow : α → Option ρ}
    (hexec : ∀ i a s s' changed, exec i a s = .ok (s', changed) →
      ∃ r, toRow a = some r ∧ (view s).upsert c r = some (view s', changed))
    {i : ℕ} {as : List α} {s s' : σ} {n : ℕ} (h : upsertAll exec i as s = .ok (s', n)) :
    ∃ rows, as.map toRow = rows.map some ∧ ((rows.map d.key).Nodup →
      (∀ k, (view s').find k = overlay c rows (view s).find k) ∧
      n = rows.countP (fun r => Table.writes c ((view s).find (d.key r)) r) ∧
      ∀ q : κ → Bool, (∀ r ∈ rows, q (d.key r) = false) →
        (view s').rows.countP (fun r => q (d.key r)) =
          (view s).rows.countP fun r => q (d.key r)) := by
  induction as generalizing i s n with
  | nil =>
    cases h
    exact ⟨[], rfl, fun _ => ⟨fun k => rfl, rfl, fun q _ => rfl⟩⟩
  | cons a as ih =>
    obtain ⟨s₁, changed, m, ha, has, rfl⟩ := upsertAll_cons.mp h
    obtain ⟨r, hr, hupsert⟩ := hexec i a s s₁ changed ha
    obtain ⟨rows, hrows, hspec⟩ := ih has
    refine ⟨r :: rows, by rw [List.map_cons, List.map_cons, hr, hrows], fun hnodup => ?_⟩
    rw [List.map_cons, List.nodup_cons] at hnodup
    obtain ⟨hfind, hcount, hother⟩ := hspec hnodup.2
    have hne : ∀ r' ∈ rows, d.key r' ≠ d.key r := fun r' hr' heq =>
      hnodup.1 (heq ▸ List.mem_map_of_mem hr')
    have hstep := Table.find_upsert hupsert
    refine ⟨fun k => ?_, ?_, fun q hq => ?_⟩
    · rw [hfind k, overlay, overlay, lookup, lookup, List.find?_cons]
      by_cases hk : d.key r = k
      · -- the first row is the only one with this key
        have hnone : rows.find? (fun r' => decide (d.key r' = k)) = none := by
          rw [List.find?_eq_none]
          intro r' hr'
          simpa [← hk] using hne r' hr'
        rw [hnone, hstep k, if_pos hk.symm, hk]
        simp
      · rw [hstep k, if_neg (Ne.symm hk)]
        simp [hk]
    · rw [hcount, List.countP_cons, Table.flag_upsert hupsert]
      have hcongr : rows.countP (fun r' => Table.writes c ((view s₁).find (d.key r')) r') =
          rows.countP fun r' => Table.writes c ((view s).find (d.key r')) r' := by
        refine List.countP_congr fun r' hr' => ?_
        rw [hstep, if_neg (hne r' hr')]
      rw [hcongr]
      cases Table.writes c ((view s).find (d.key r)) r <;> rfl
    -- the first row is not of the class either
    · rw [hother q fun r' hr' => hq r' (List.mem_cons_of_mem r hr')]
      exact Table.countP_upsert hupsert (hq r List.mem_cons_self)

end Loop

/-! ## Complete replacement

A loop of upserts and the deletion of everything else. What is left are the proposed rows, merged with
those that were there.
-/

section Replacement

variable {κ ρ γ : Type} [DecidableEq κ] {d : Decl κ ρ}

/-- What is looked up has the key. -/
theorem key_of_lookup {rows : List ρ} {k : κ} {r : ρ} (h : lookup d rows k = some r) :
    d.key r = k := by
  simpa using List.find?_some h

/-- Among distinct keys a row is looked up by its key alone. -/
theorem lookup_eq_some {rows : List ρ} (hnodup : (rows.map d.key).Nodup) {k : κ} {r : ρ} :
    lookup d rows k = some r ↔ r ∈ rows ∧ d.key r = k := by
  constructor
  · intro h
    exact ⟨List.mem_of_find?_eq_some h, key_of_lookup h⟩
  · rintro ⟨hr, rfl⟩
    obtain ⟨r', hr'⟩ : ∃ r', lookup d rows (d.key r) = some r' := by
      rw [← Option.isSome_iff_exists, lookup, List.find?_isSome]
      exact ⟨r, hr, by simp⟩
    have hmem : r' ∈ rows := List.mem_of_find?_eq_some hr'
    rw [hr', List.inj_on_of_nodup_map hnodup hmem hr (key_of_lookup hr')]

/-- A condition that all proposed rows meet filters no lookup. -/
theorem filter_lookup {rows : List ρ} {p : ρ → Bool} (hp : ∀ r ∈ rows, p r = true) (k : κ) :
    (lookup d rows k).filter p = lookup d rows k := by
  cases h : lookup d rows k with
  | none => rfl
  | some r => rw [Option.filter_some, hp r (List.mem_of_find?_eq_some h), if_pos rfl]

/-- A key that no row has is not looked up. -/
theorem lookup_eq_none {rows : List ρ} {k : κ} : lookup d rows k = none ↔ k ∉ rows.map d.key := by
  simp [lookup, List.find?_eq_none]

/-- A merged row has the key of the new one. -/
theorem key_merged {t : Table d} {c : OnConflict d} {r : ρ} :
    d.key (Table.merged c (t.find (d.key r)) r) = d.key r := by
  unfold Table.merged
  cases hold : t.find (d.key r) with
  | none => rfl
  | some old =>
    have hkey : d.key old = d.key r := (Table.find_eq_some.mp hold).2
    dsimp only
    split_ifs
    · rw [c.key_set, hkey]
    · exact hkey

/-- Upserting some rows and deleting every row with another key leaves the merged rows only. -/
theorem overlay_filter {rows : List ρ} {q : κ → Bool} (hq : ∀ k, q k = false ↔ k ∈ rows.map d.key)
    (c : OnConflict d) (t : Table d) (k : κ) :
    ((overlay c rows t.find k).filter fun r => !q (d.key r)) =
      (lookup d rows k).map (Table.merged c (t.find k)) := by
  unfold overlay
  cases hlookup : lookup d rows k with
  | some r =>
    have hkey : d.key r = k := key_of_lookup hlookup
    have hmem : q (d.key r) = false :=
      (hq _).mpr (List.mem_map_of_mem (List.mem_of_find?_eq_some hlookup))
    rw [Option.map_some, Option.filter_some, ← hkey, key_merged, hmem]
    rfl
  | none =>
    rw [Option.map_none]
    cases hold : t.find k with
    | none => rfl
    | some old =>
      have hold : d.key old = k := (Table.find_eq_some.mp hold).2
      have hk : q k = true := by
        rw [← Bool.not_eq_false, hq]
        exact lookup_eq_none.mp hlookup
      rw [Option.filter_some, hold, hk]
      rfl

/-- A table already shows the proposed rows exactly when no proposed row is absent or looks different,
and no row has another key. -/
theorem shows_iff (t : Table d) (rows : List ρ) (hnodup : (rows.map d.key).Nodup) (q : κ → Bool)
    (hq : ∀ k, q k = false ↔ k ∈ rows.map d.key) (view : ρ → γ) [DecidableEq γ] :
    (∀ k, (t.find k).map view = (lookup d rows k).map view) ↔
      (rows.countP fun r => decide ((t.find (d.key r)).map view ≠ some (view r))) = 0 ∧
      (t.rows.countP fun r => q (d.key r)) = 0 := by
  rw [List.countP_eq_zero, List.countP_eq_zero]
  constructor
  · intro h
    constructor
    · intro r hr
      have hlookup := (lookup_eq_some hnodup).mpr ⟨hr, rfl⟩
      rw [h (d.key r), hlookup]
      simp
    · intro r hr
      have hk := h (d.key r)
      rw [Table.find_of_mem hr] at hk
      rw [Bool.not_eq_true, hq]
      by_contra hkey
      rw [lookup_eq_none.mpr hkey] at hk
      cases hk
  · rintro ⟨hwritten, hdeleted⟩ k
    cases hlookup : lookup d rows k with
    | some r =>
      obtain ⟨hr, rfl⟩ := (lookup_eq_some hnodup).mp hlookup
      simpa using hwritten r hr
    | none =>
      cases hfind : t.find k with
      | none => rfl
      | some r =>
        obtain ⟨hr, rfl⟩ := Table.find_eq_some.mp hfind
        have hkey := (hq _).mp (Bool.eq_false_iff.mpr (hdeleted r hr))
        exact absurd hkey (lookup_eq_none.mp hlookup)

omit [DecidableEq κ] in
/-- Records that all have a row correspond to their rows. -/
theorem map_of_isSome {α : Type} {toRow : α → Option ρ} {as : List α}
    (h : ∀ a ∈ as, (toRow a).isSome = true) : as.map toRow = (as.filterMap toRow).map some := by
  induction as with
  | nil => rfl
  | cons a as ih =>
    obtain ⟨r, hr⟩ := Option.isSome_iff_exists.mp (h a List.mem_cons_self)
    rw [List.filterMap_cons_some hr, List.map_cons, List.map_cons, hr,
      ih fun b hb => h b (List.mem_cons_of_mem a hb)]

omit [DecidableEq κ] in
/-- Records that all have a row are the rows they have. -/
theorem rows_of_map {α : Type} {toRow : α → Option ρ} {id : α → κ} {as : List α} {rows : List ρ}
    (hid : ∀ a r, toRow a = some r → d.key r = id a) (h : as.map toRow = rows.map some) :
    rows = as.filterMap toRow ∧ rows.map d.key = as.map id := by
  induction as generalizing rows with
  | nil =>
    obtain rfl : rows = [] := by simpa using h.symm
    exact ⟨rfl, rfl⟩
  | cons a as ih =>
    cases rows with
    | nil => cases h
    | cons r rows =>
      rw [List.map_cons, List.map_cons, List.cons.injEq] at h
      obtain ⟨hrows, hkeys⟩ := ih h.2
      rw [List.filterMap_cons_some h.1, ← hrows, List.map_cons, List.map_cons, hkeys, hid a r h.1]
      exact ⟨rfl, rfl⟩

/-- What a loop of upserts leaves once the rows with other keys are deleted, with the number of rows it
wrote; the rows to delete are those that were to be deleted before the loop. -/
theorem upsertAll_replaces {α σ ε : Type} {exec : ℕ → α → σ → Except ε (σ × Bool)}
    (view : σ → Table d) {c : OnConflict d} (toRow : α → Option ρ) (id : α → κ)
    (hid : ∀ a r, toRow a = some r → d.key r = id a)
    (hexec : ∀ i a s s' changed, exec i a s = .ok (s', changed) →
      ∃ r, toRow a = some r ∧ (view s).upsert c r = some (view s', changed))
    {i : ℕ} {as : List α} {s s' : σ} {n : ℕ} (h : upsertAll exec i as s = .ok (s', n))
    (hnodup : (as.map id).Nodup) {q : κ → Bool} (hq : ∀ k, q k = false ↔ k ∈ as.map id) :
    (∀ k, ((view s').delete fun r => q (d.key r)).find k =
        (lookup d (as.filterMap toRow) k).map (Table.merged c ((view s).find k))) ∧
      n = (as.filterMap toRow).countP (fun r => Table.writes c ((view s).find (d.key r)) r) ∧
      ((view s').rows.countP fun r => q (d.key r)) =
        (view s).rows.countP fun r => q (d.key r) := by
  obtain ⟨rows, hrows, hspec⟩ := upsertAll_spec hexec h
  obtain ⟨rfl, hkeys⟩ := rows_of_map hid hrows
  rw [← hkeys] at hnodup hq
  obtain ⟨hfind, hcount, hother⟩ := hspec hnodup
  refine ⟨fun k => ?_, hcount, hother q fun r hr => (hq _).mpr (List.mem_map_of_mem hr)⟩
  rw [Table.find_delete, hfind k, overlay_filter hq]

end Replacement

/-! ## Rows in any order

Tables are compared by `find`, and lists of rows up to their order.
-/

/-- Lists with distinct keys that look up alike have the same entries. -/
theorem perm_of_find? {α κ : Type} [DecidableEq κ] {key : α → κ} {l l' : List α}
    (hl : (l.map key).Nodup) (hl' : (l'.map key).Nodup)
    (h : ∀ k, (l.find? fun a => decide (key a = k)) = l'.find? fun a => decide (key a = k)) :
    l.Perm l' := by
  have hmem {m : List α} (hm : (m.map key).Nodup) (a : α) :
      a ∈ m ↔ (m.find? fun b => decide (key b = key a)) = some a := by
    constructor
    · intro ha
      obtain ⟨b, hb⟩ : ∃ b, (m.find? fun b => decide (key b = key a)) = some b := by
        rw [← Option.isSome_iff_exists, List.find?_isSome]
        exact ⟨a, ha, decide_eq_true rfl⟩
      have hkey : key b = key a := by simpa using List.find?_some hb
      rw [hb, List.inj_on_of_nodup_map hm (List.mem_of_find?_eq_some hb) ha hkey]
    · exact List.mem_of_find?_eq_some
  refine (List.perm_ext_iff_of_nodup (List.Nodup.of_map key hl) (List.Nodup.of_map key hl')).mpr
    fun a => ?_
  rw [hmem hl, hmem hl', h]

end Keyed
