import Ghpulse.Library.PyStr
import Mathlib.Tactic.IntervalCases

/-!
# UTF-8

Encoding, and decoding with replacement: a byte that cannot continue a character ends it, and what was
begun is replaced by `U+FFFD`. This is the decoder of a URL parser and of Python's `errors="replace"`.
Bytes are natural numbers.
-/

open Python

namespace Utf8

/-- `U+FFFD`. -/
def replacement : CodePoint := Fin.ofNat 0x110000 0xfffd

/-- The bytes of a character. -/
def encodeChar (c : CodePoint) : List ℕ :=
  if c.val < 0x80 then [c.val]
  else if c.val < 0x800 then [0xc0 + c.val / 64, 0x80 + c.val % 64]
  else if c.val < 0x10000 then
    [0xe0 + c.val / 4096, 0x80 + c.val / 64 % 64, 0x80 + c.val % 64]
  else
    [0xf0 + c.val / 262144, 0x80 + c.val / 4096 % 64, 0x80 + c.val / 64 % 64, 0x80 + c.val % 64]

/-- The bytes of a text. -/
def encode (s : Str) : List ℕ := s.flatMap encodeChar

/-- What the first byte of a character tells: how many bytes follow, the bounds of the next one, and the
bits so far. -/
def lead (b : ℕ) : Option (ℕ × ℕ × ℕ × ℕ) :=
  if b < 0x80 then some (0, 0x80, 0xbf, b)
  else if 0xc2 ≤ b ∧ b ≤ 0xdf then some (1, 0x80, 0xbf, b - 0xc0)
  else if 0xe0 ≤ b ∧ b ≤ 0xef then
    some (2, if b = 0xe0 then 0xa0 else 0x80, if b = 0xed then 0x9f else 0xbf, b - 0xe0)
  else if 0xf0 ≤ b ∧ b ≤ 0xf4 then
    some (3, if b = 0xf0 then 0x90 else 0x80, if b = 0xf4 then 0x8f else 0xbf, b - 0xf0)
  else none

/-- Read the bytes that follow, if they do: the value of the character, and the rest. -/
def follow : ℕ → ℕ → ℕ → ℕ → List ℕ → Option ℕ × List ℕ
  | 0, _, _, value, bytes => (some value, bytes)
  | _ + 1, _, _, _, [] => (none, [])
  | n + 1, low, high, value, b :: bytes =>
    if low ≤ b ∧ b ≤ high then follow n 0x80 0xbf (value * 64 + (b - 0x80)) bytes
    -- the byte may begin another character
    else (none, b :: bytes)

/-- Decode, in at most `fuel` characters. -/
def decodeFrom : ℕ → List ℕ → Str
  | 0, _ => []
  | _ + 1, [] => []
  | fuel + 1, b :: bytes =>
    match lead b with
    | none => replacement :: decodeFrom fuel bytes
    | some (n, low, high, value) =>
      let read := follow n low high value bytes
      (read.1.elim replacement (Fin.ofNat 0x110000)) :: decodeFrom fuel read.2

/-- Decode with replacement; every character takes a byte. -/
def decode (bytes : List ℕ) : Str := decodeFrom bytes.length bytes

/-- The bytes of a text are bytes. -/
theorem lt_of_mem_encode {s : Str} {b : ℕ} (h : b ∈ encode s) : b < 256 := by
  obtain ⟨c, -, hb⟩ := List.mem_flatMap.mp h
  have hc := c.isLt
  unfold encodeChar at hb
  split_ifs at hb <;> simp only [List.mem_cons, List.not_mem_nil, or_false] at hb <;> omega

/-! ## Reading back

The decoder consumes at least one byte for each character, so as many turns as there are bytes are enough.
A character that was encoded is read back from its first byte, whatever follows it.
-/

/-- The rest after the following bytes is not longer. -/
theorem length_follow_le (n low high value : ℕ) (bytes : List ℕ) :
    (follow n low high value bytes).2.length ≤ bytes.length := by
  induction n generalizing low high value bytes with
  | zero => exact le_rfl
  | succ n ih =>
    cases bytes with
    | nil => exact le_rfl
    | cons b bytes =>
      unfold follow
      split_ifs
      · exact (ih _ _ _ _).trans (Nat.le_succ _)
      · exact le_rfl

/-- More turns than bytes make no difference. -/
theorem decodeFrom_of_le {fuel : ℕ} {bytes : List ℕ} (h : bytes.length ≤ fuel) :
    decodeFrom fuel bytes = decode bytes := by
  unfold decode
  generalize hlength : bytes.length = n at h ⊢
  induction n using Nat.strong_induction_on generalizing fuel bytes with
  | _ n ih =>
    cases bytes with
    | nil =>
      subst hlength
      cases fuel <;> rfl
    | cons b bytes =>
      subst hlength
      obtain ⟨fuel, rfl⟩ := Nat.exists_eq_add_of_le' ((Nat.succ_le_succ (Nat.zero_le _)).trans h)
      have hfuel : bytes.length ≤ fuel := Nat.le_of_succ_le_succ h
      have hrest {rest : List ℕ} (hle : rest.length ≤ bytes.length) :
          decodeFrom fuel rest = decodeFrom bytes.length rest := by
        have hlt : rest.length < (b :: bytes).length := Nat.lt_succ_of_le hle
        rw [ih _ hlt rfl (hle.trans hfuel), ih _ hlt rfl hle]
      rw [List.length_cons]
      unfold decodeFrom
      cases lead b with
      | none => rw [hrest le_rfl]
      | some seen =>
        obtain ⟨n, low, high, value⟩ := seen
        simp only [hrest (length_follow_le n low high value bytes)]

/-- A character is read back from its first byte. -/
theorem decode_cons {b n low high value v : ℕ} {bytes rest : List ℕ}
    (hlead : lead b = some (n, low, high, value))
    (hfollow : follow n low high value bytes = (some v, rest)) :
    decode (b :: bytes) = Fin.ofNat 0x110000 v :: decode rest := by
  have hle := length_follow_le n low high value bytes
  rw [hfollow] at hle
  rw [decode, List.length_cons]
  unfold decodeFrom
  simp only [hlead, hfollow]
  rw [decodeFrom_of_le hle]
  rfl

/-- A byte within the bounds is taken, and those after it are continuation bytes. -/
theorem follow_cons {n low high value b : ℕ} {bytes : List ℕ} (hlow : low ≤ b) (hhigh : b ≤ high) :
    follow (n + 1) low high value (b :: bytes) = follow n 0x80 0xbf (value * 64 + (b - 0x80)) bytes :=
  if_pos ⟨hlow, hhigh⟩

/-- A byte of ASCII leads itself alone. -/
theorem lead_of_lt {b : ℕ} (h : b < 0x80) : lead b = some (0, 0x80, 0xbf, b) := if_pos h

/-- The first byte of two. -/
theorem lead_two {k : ℕ} (hlow : 2 ≤ k) (hhigh : k < 32) : lead (0xc0 + k) = some (1, 0x80, 0xbf, k) := by
  rw [lead, if_neg (by omega), if_pos (by omega), Nat.add_sub_cancel_left]

/-- The first byte of three. -/
theorem lead_three {k : ℕ} (h : k < 16) :
    lead (0xe0 + k) = some (2, if k = 0 then 0xa0 else 0x80, if k = 13 then 0x9f else 0xbf, k) := by
  rw [lead, if_neg (by omega), if_neg (by omega), if_pos (by omega), Nat.add_sub_cancel_left,
    if_congr (show 0xe0 + k = 0xe0 ↔ k = 0 by omega) rfl rfl,
    if_congr (show 0xe0 + k = 0xed ↔ k = 13 by omega) rfl rfl]

/-- The first byte of four. -/
theorem lead_four {k : ℕ} (h : k < 5) :
    lead (0xf0 + k) = some (3, if k = 0 then 0x90 else 0x80, if k = 4 then 0x8f else 0xbf, k) := by
  rw [lead, if_neg (by omega), if_neg (by omega), if_neg (by omega), if_pos (by omega),
    Nat.add_sub_cancel_left, if_congr (show 0xf0 + k = 0xf0 ↔ k = 0 by omega) rfl rfl,
    if_congr (show 0xf0 + k = 0xf4 ↔ k = 4 by omega) rfl rfl]

/-- A character that is no surrogate is read back. -/
theorem decode_encodeChar {c : CodePoint} (h : c.val < 0xd800 ∨ 0xdfff < c.val) (bytes : List ℕ) :
    decode (encodeChar c ++ bytes) = c :: decode bytes := by
  have hc := c.isLt
  have hread {b n low high value v : ℕ} {tail : List ℕ} (hlead : lead b = some (n, low, high, value))
      (hfollow : follow n low high value tail = (some v, bytes)) (hv : v = c.val) :
      decode (b :: tail) = c :: decode bytes := by
    rw [decode_cons hlead hfollow, hv, Fin.ofNat_val_eq_self]
  unfold encodeChar
  split_ifs with h1 h2 h3
  · exact hread (lead_of_lt h1) rfl rfl
  · refine hread (lead_two (by omega) (by omega)) ?_ (v := c.val / 64 * 64 + c.val % 64) (by omega)
    rw [List.append_eq, List.cons_append, follow_cons (by omega) (by omega), Nat.add_sub_cancel_left]
    rfl
  · refine hread (lead_three (by omega)) ?_
      (v := (c.val / 4096 * 64 + c.val / 64 % 64) * 64 + c.val % 64) (by omega)
    rw [List.append_eq, List.cons_append, follow_cons (by split_ifs <;> omega) (by split_ifs <;> omega),
      List.cons_append, follow_cons (by omega) (by omega), Nat.add_sub_cancel_left,
      Nat.add_sub_cancel_left]
    rfl
  · refine hread (lead_four (by omega)) ?_
      (v := ((c.val / 262144 * 64 + c.val / 4096 % 64) * 64 + c.val / 64 % 64) * 64 + c.val % 64)
      (by omega)
    rw [List.append_eq, List.cons_append, follow_cons (by split_ifs <;> omega) (by split_ifs <;> omega),
      List.cons_append, follow_cons (by omega) (by omega), List.cons_append,
      follow_cons (by omega) (by omega), Nat.add_sub_cancel_left, Nat.add_sub_cancel_left,
      Nat.add_sub_cancel_left]
    rfl

/-! ## What is decoded

Whatever the bytes are, no surrogate comes out: the bounds of the second byte exclude them.
-/

/-- A byte that continues a character lies within the bounds. -/
theorem follow_succ_eq_some {n low high value v : ℕ} {bytes rest : List ℕ}
    (h : follow (n + 1) low high value bytes = (some v, rest)) :
    ∃ b tail, low ≤ b ∧ b ≤ high ∧
      follow n 0x80 0xbf (value * 64 + (b - 0x80)) tail = (some v, rest) := by
  cases bytes with
  | nil => cases h
  | cons b tail =>
    unfold follow at h
    split_ifs at h with hb
    · exact ⟨b, tail, hb.1, hb.2, h⟩
    · cases h

/-- Without following bytes the value is that of the first one. -/
theorem value_of_follow_zero {low high value v : ℕ} {bytes rest : List ℕ}
    (h : follow 0 low high value bytes = (some v, rest)) : v = value := by
  cases h
  rfl

/-- What is read is a character, and no surrogate. -/
theorem scalar_of_follow {b n low high value v : ℕ} {bytes rest : List ℕ}
    (hlead : lead b = some (n, low, high, value)) (h : follow n low high value bytes = (some v, rest)) :
    (v < 0xd800 ∨ 0xdfff < v) ∧ v < 0x110000 := by
  unfold lead at hlead
  by_cases h1 : b < 0x80
  · rw [if_pos h1] at hlead
    cases hlead
    have := value_of_follow_zero h
    omega
  rw [if_neg h1] at hlead
  by_cases h2 : 0xc2 ≤ b ∧ b ≤ 0xdf
  · rw [if_pos h2] at hlead
    cases hlead
    obtain ⟨b1, tail, hlow, hhigh, h⟩ := follow_succ_eq_some h
    have := value_of_follow_zero h
    omega
  rw [if_neg h2] at hlead
  by_cases h3 : 0xe0 ≤ b ∧ b ≤ 0xef
  · rw [if_pos h3] at hlead
    cases hlead
    obtain ⟨b1, tail, hlow, hhigh, h⟩ := follow_succ_eq_some h
    obtain ⟨b2, tail, hlow2, hhigh2, h⟩ := follow_succ_eq_some h
    have := value_of_follow_zero h
    split_ifs at hlow hhigh <;> omega
  rw [if_neg h3] at hlead
  split at hlead
  · cases hlead
    obtain ⟨b1, tail, hlow, hhigh, h⟩ := follow_succ_eq_some h
    obtain ⟨b2, tail, hlow2, hhigh2, h⟩ := follow_succ_eq_some h
    obtain ⟨b3, tail, hlow3, hhigh3, h⟩ := follow_succ_eq_some h
    have := value_of_follow_zero h
    split_ifs at hlow hhigh <;> omega
  · cases hlead

/-- What is decoded can be encoded. -/
theorem encodable_decodeFrom (fuel : ℕ) (bytes : List ℕ) : encodable (decodeFrom fuel bytes) = true := by
  have hcons {c : CodePoint} {s : Str} (hc : c.val < 0xd800 ∨ 0xdfff < c.val) (hs : encodable s = true) :
      encodable (c :: s) = true := by
    rw [encodable, List.all_cons, Bool.and_eq_true]
    exact ⟨decide_eq_true hc, hs⟩
  have hreplacement : replacement.val < 0xd800 ∨ 0xdfff < replacement.val := by decide
  induction fuel generalizing bytes with
  | zero => rfl
  | succ fuel ih =>
    cases bytes with
    | nil => rfl
    | cons b bytes =>
      unfold decodeFrom
      cases hlead : lead b with
      | none => exact hcons hreplacement (ih bytes)
      | some seen =>
        obtain ⟨n, low, high, value⟩ := seen
        refine hcons ?_ (ih _)
        cases hfollow : (follow n low high value bytes).1 with
        | none => exact hreplacement
        | some v =>
          obtain ⟨hscalar, hlt⟩ := scalar_of_follow hlead (Prod.ext hfollow rfl)
          change v % 0x110000 < 0xd800 ∨ 0xdfff < v % 0x110000
          rwa [Nat.mod_eq_of_lt hlt]

/-- What is decoded has no surrogates. -/
theorem encodable_decode (bytes : List ℕ) : encodable (decode bytes) = true :=
  encodable_decodeFrom bytes.length bytes

/-- A text that can be encoded is decoded again. -/
theorem decode_encode {s : Str} (h : encodable s = true) : decode (encode s) = s := by
  induction s with
  | nil => rfl
  | cons c s ih =>
    rw [encodable, List.all_cons, Bool.and_eq_true, decide_eq_true_iff] at h
    rw [encode, List.flatMap_cons, decode_encodeChar (by omega)]
    exact congrArg _ (ih h.2)

end Utf8
