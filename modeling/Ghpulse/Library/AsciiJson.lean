import Ghpulse.Library.Quoting

/-!
# ASCII JSON strings

`json.dumps` with `ensure_ascii` and `json.loads`, for the two kinds of value that stand alone in a page:
strings and booleans. A character outside printable ASCII is written as one `\u` escape or, above the
basic plane, as two that form a surrogate pair; the reader joins such a pair again. So a text comes back
as it was unless it holds a high surrogate right before a low one, which no Unicode text does.
-/

namespace AsciiJson

open Python

/-- A string or a boolean. -/
inductive Atom where
  | str (s : Str)
  | bool (b : Bool)
  deriving DecidableEq

/-! ## Writing

Only printable ASCII stands for itself; the quotation mark, the backslash and five control characters have
short escapes.
-/

/-- One code unit as an escape: `\u` and four hexadecimal digits. -/
def unitEscape (u : ℕ) : Str := cp '\\' :: cp 'u' :: hexText 4 u

/-- One character of a string that `json.dumps` writes with `ensure_ascii`. -/
def asciiEscape (c : CodePoint) : Str :=
  if c = cp '"' then [cp '\\', cp '"']
  else if c = cp '\\' then [cp '\\', cp '\\']
  else if c.val = 0xa then [cp '\\', cp 'n']
  else if c.val = 0xd then [cp '\\', cp 'r']
  else if c.val = 0x9 then [cp '\\', cp 't']
  else if c.val = 0xc then [cp '\\', cp 'f']
  else if c.val = 0x8 then [cp '\\', cp 'b']
  else if 0x20 ≤ c.val ∧ c.val ≤ 0x7e then [c]
  else if c.val < 0x10000 then unitEscape c.val
  else unitEscape (0xd800 + (c.val - 0x10000) / 0x400) ++ unitEscape (0xdc00 + (c.val - 0x10000) % 0x400)

/-- `json.dumps(value, ensure_ascii=True)`. -/
def dumps : Atom → Str
  | .str s => cp '"' :: (s.flatMap asciiEscape ++ [cp '"'])
  | .bool true => lit "true"
  | .bool false => lit "false"

/-- An escape of a code unit has no control character. -/
theorem le_of_mem_unitEscape {u : ℕ} {x : CodePoint} (hx : x ∈ unitEscape u) : 0x20 ≤ x.val := by
  rcases List.mem_cons.mp hx with rfl | hx
  · decide
  rcases List.mem_cons.mp hx with rfl | hx
  · decide
  · obtain ⟨d, hd, rfl⟩ := mem_hexText hx
    have hdigit : ∀ d < 16, 0x20 ≤ (hexDigit d).val := by decide
    exact hdigit d hd

/-- Nor has the escape of a character. -/
theorem le_of_mem_asciiEscape {c x : CodePoint} (hx : x ∈ asciiEscape c) : 0x20 ≤ x.val := by
  unfold asciiEscape at hx
  -- the quote, the backslash and the five control characters with a letter of their own
  iterate 7
    split at hx
    · rcases List.mem_pair.mp hx with rfl | rfl <;> decide
  split at hx
  case isTrue hrange =>
    rw [List.mem_singleton.mp hx]
    exact hrange.1
  split at hx
  · exact le_of_mem_unitEscape hx
  · rcases List.mem_append.mp hx with hx | hx
    · exact le_of_mem_unitEscape hx
    · exact le_of_mem_unitEscape hx

/-- A string is written without control characters. -/
theorem le_of_mem_dumps_str {s : Str} {x : CodePoint} (hx : x ∈ dumps (.str s)) : 0x20 ≤ x.val := by
  rcases List.mem_cons.mp hx with rfl | hx
  · decide
  rcases List.mem_append.mp hx with hx | hx
  · obtain ⟨c, -, hx⟩ := List.mem_flatMap.mp hx
    exact le_of_mem_asciiEscape hx
  · rw [List.mem_singleton.mp hx]
    decide

/-! ## Reading

The reader works in two steps, as a decoder does: it scans the literal into pieces, and then joins two
escaped halves of a pair. A half that is not followed by its other half stays a character of its own.
-/

/-- The value of a hexadecimal digit of either case. -/
def hexVal (c : CodePoint) : Option ℕ :=
  if 0x30 ≤ c.val ∧ c.val ≤ 0x39 then some (c.val - 0x30)
  else if 0x61 ≤ c.val ∧ c.val ≤ 0x66 then some (c.val - 0x57)
  else if 0x41 ≤ c.val ∧ c.val ≤ 0x46 then some (c.val - 0x37)
  else none

/-- Four hexadecimal digits. -/
def hexUnit (a b c d : CodePoint) : Option CodePoint := do
  let a ← hexVal a
  let b ← hexVal b
  let c ← hexVal c
  let d ← hexVal d
  return Fin.ofNat 0x110000 (((a * 16 + b) * 16 + c) * 16 + d)

/-- The character of a two-character escape. -/
def unescape (e : CodePoint) : Option CodePoint :=
  if e = cp '"' ∨ e = cp '\\' ∨ e = cp '/' then some e
  else if e = cp 'b' then some (Fin.ofNat 0x110000 0x8)
  else if e = cp 'f' then some (Fin.ofNat 0x110000 0xc)
  else if e = cp 'n' then some (Fin.ofNat 0x110000 0xa)
  else if e = cp 'r' then some (Fin.ofNat 0x110000 0xd)
  else if e = cp 't' then some (Fin.ofNat 0x110000 0x9)
  else none

/-- What a string literal is made of: characters, and code units written with `\u`. -/
inductive Piece where
  | char (c : CodePoint)
  | unit (u : CodePoint)

/-- Put a piece before those already read. -/
def Piece.before (p : Piece) (scanned : List Piece × Str) : List Piece × Str :=
  (p :: scanned.1, scanned.2)

/-- Read a string literal after its opening quote: its pieces, and what follows the closing quote. -/
def scan : Str → Option (List Piece × Str)
  | [] => none
  | c :: r =>
    if c = cp '"' then some ([], r)
    else if c = cp '\\' then
      match r with
      | [] => none
      | e :: r =>
        if e = cp 'u' then
          match r with
          | a :: b :: c :: d :: r => do
            let u ← hexUnit a b c d
            return (Piece.unit u).before (← scan r)
          | _ => none
        else do
          let x ← unescape e
          return (Piece.char x).before (← scan r)
    else if c.val < 0x20 then none
    else do return (Piece.char c).before (← scan r)

/-- The first code unit of a surrogate pair. -/
def isHigh (c : CodePoint) : Bool := decide (0xd800 ≤ c.val ∧ c.val ≤ 0xdbff)

/-- The second code unit of a surrogate pair. -/
def isLow (c : CodePoint) : Bool := decide (0xdc00 ≤ c.val ∧ c.val ≤ 0xdfff)

/-- The character of a surrogate pair. -/
def joinPair (h l : CodePoint) : CodePoint :=
  Fin.ofNat 0x110000 (0x10000 + (h.val - 0xd800) * 0x400 + (l.val - 0xdc00))

/-- The text of a literal: two escaped units that form a surrogate pair are one character. -/
def assemble : List Piece → Str
  | [] => []
  | .char c :: ps => c :: assemble ps
  | .unit h :: .unit l :: ps =>
    if isHigh h && isLow l then joinPair h l :: assemble ps else h :: assemble (.unit l :: ps)
  | .unit u :: ps => u :: assemble ps

/-- The white space between JSON tokens. -/
def isJsonSpace (c : CodePoint) : Bool :=
  c == cp ' ' || c == cp '\t' || c == cp '\n' || c == cp '\r'

/-- `json.loads`, where the text is that of a string or a boolean; other texts are not read here. -/
def loads (text : Str) : Option Atom :=
  match trim isJsonSpace text with
  | [] => none
  | c :: r =>
    if c = cp '"' then
      match scan r with
      | some (ps, []) => some (.str (assemble ps))
      | _ => none
    else if c :: r = lit "true" then some (.bool true)
    else if c :: r = lit "false" then some (.bool false)
    else none

/-! ## Pieces and characters

A character may be spelled in several ways, and a text is spelled character by character. Joining pieces
could only go wrong where one character ends with a high surrogate and the next one starts with a low one.
-/

/-- The ways to spell one character in a string literal. -/
inductive Spells : List Piece → CodePoint → Prop where
  | char (c : CodePoint) : Spells [.char c] c
  | unit (c : CodePoint) : Spells [.unit c] c
  | pair {h l : CodePoint} : isHigh h = true → isLow l = true → Spells [.unit h, .unit l] (joinPair h l)

/-- The pieces of a whole text, character by character. -/
inductive Spelled : Str → List Piece → Prop where
  | nil : Spelled [] []
  | cons {c : CodePoint} {s : Str} {qs ps : List Piece} :
      Spells qs c → Spelled s ps → Spelled (c :: s) (qs ++ ps)

/-- No high surrogate stands right before a low one; true of every text without surrogates, and of the
lone low surrogates by which `os.environ` shows bytes that are not UTF-8. -/
def Unpaired (s : Str) : Prop := s.IsChain fun c d => ¬(isHigh c = true ∧ isLow d = true)

/-- A text that can be encoded has no pair of surrogates to join. -/
theorem unpaired_of_encodable {s : Str} (h : encodable s = true) : Unpaired s := by
  refine List.Pairwise.isChain (List.pairwise_of_forall_mem_list fun c hc d _ hcd => ?_)
  have hne : c.val < 0xd800 ∨ 0xdfff < c.val := by simpa using List.all_eq_true.mp h c hc
  have hhigh : 0xd800 ≤ c.val ∧ c.val ≤ 0xdbff := by simpa [isHigh] using hcd.1
  omega

/-- A code unit that the pieces of a text start with is its first character, or a high surrogate. -/
theorem Spelled.head_unit {s : Str} {u : CodePoint} {ps : List Piece} (h : Spelled s (.unit u :: ps)) :
    s.head? = some u ∨ isLow u = false := by
  generalize hqs : Piece.unit u :: ps = qs at h
  cases h with
  | nil => cases hqs
  | cons hc hs =>
    cases hc with
    | char c => cases hqs
    | unit c =>
      cases hqs
      exact Or.inl rfl
    | pair hh hl =>
      cases hqs
      have hhigh : 0xd800 ≤ u.val ∧ u.val ≤ 0xdbff := by simpa [isHigh] using hh
      exact Or.inr (by simp only [isLow, decide_eq_false_iff_not]; omega)

/-- A code unit that is no half of a pair stands for itself. -/
theorem assemble_unit {u : CodePoint} {ps : List Piece}
    (h : ∀ l qs, ps = .unit l :: qs → ¬(isHigh u = true ∧ isLow l = true)) :
    assemble (.unit u :: ps) = u :: assemble ps := by
  match ps with
  | [] => rfl
  | .char c :: qs => rfl
  | .unit l :: qs =>
    rw [assemble, if_neg]
    rw [Bool.and_eq_true]
    exact h l qs rfl

/-- The pieces of a text spell the text. -/
theorem Spelled.assemble_eq {s : Str} {ps : List Piece} (h : Spelled s ps) (hs : Unpaired s) :
    assemble ps = s := by
  induction h with
  | nil => rfl
  | @cons c s qs ps hc hrest ih =>
    have htail : assemble ps = s := ih hs.tail
    cases hc with
    | char c => rw [List.singleton_append, assemble, htail]
    | unit c =>
      rw [List.singleton_append, assemble_unit, htail]
      rintro l qs rfl hpair
      rcases hrest.head_unit with hhead | hlow
      · obtain ⟨t, rfl⟩ := List.head?_eq_some_iff.mp hhead
        exact (List.isChain_cons_cons.mp hs).1 hpair
      · rw [hlow] at hpair
        exact absurd hpair.2 Bool.false_ne_true
    | pair hh hl =>
      rw [List.cons_append, List.singleton_append, assemble, if_pos (by rw [hh, hl]; rfl), htail]

/-! ## Reading what was written

Each piece of writing is read back by itself, whatever follows it, so a literal is read back by induction
on its text.
-/

/-- A quotation mark ends the literal. -/
theorem scan_quote (r : Str) : scan (cp '"' :: r) = some ([], r) := by
  rw [scan.eq_def]
  rfl

/-- A plain character stands for itself. -/
theorem scan_char {c : CodePoint} (hquote : c ≠ cp '"') (hslash : c ≠ cp '\\') (h : 0x20 ≤ c.val)
    (r : Str) : scan (c :: r) = (scan r).map (Piece.char c).before := by
  rw [scan.eq_def]
  simp only [if_neg hquote, if_neg hslash, if_neg (by omega : ¬c.val < 0x20)]
  cases scan r <;> rfl

/-- A short escape stands for its character. -/
theorem scan_short {c e : CodePoint} (he : e ≠ cp 'u') (h : unescape e = some c) (r : Str) :
    scan (cp '\\' :: e :: r) = (scan r).map (Piece.char c).before := by
  rw [scan.eq_def]
  simp only [if_neg (by decide : cp '\\' ≠ cp '"'), if_true, if_neg he, h]
  cases scan r <;> rfl

/-- A long escape stands for its code unit. -/
theorem scan_unit {a b c d u : CodePoint} (h : hexUnit a b c d = some u) (r : Str) :
    scan (cp '\\' :: cp 'u' :: a :: b :: c :: d :: r) = (scan r).map (Piece.unit u).before := by
  rw [scan.eq_def]
  simp only [if_neg (by decide : cp '\\' ≠ cp '"'), if_true, h]
  cases scan r <;> rfl

/-- A text that the reader takes for one character. -/
def Reads (t : Str) (c : CodePoint) : Prop :=
  ∃ qs, Spells qs c ∧ ∀ r, scan (t ++ r) = (scan r).map fun p => (qs ++ p.1, p.2)

/-- A string literal whose characters are all written readably is read as its text. -/
theorem scan_flatMap {e : CodePoint → Str} (he : ∀ c, Reads (e c) c) (s r : Str) :
    ∃ ps, Spelled s ps ∧ scan (s.flatMap e ++ cp '"' :: r) = some (ps, r) := by
  induction s with
  | nil => exact ⟨[], .nil, scan_quote r⟩
  | cons c s ih =>
    obtain ⟨ps, hps, hscan⟩ := ih
    obtain ⟨qs, hqs, hc⟩ := he c
    refine ⟨qs ++ ps, .cons hqs hps, ?_⟩
    rw [List.flatMap_cons, List.append_assoc, hc, hscan]
    rfl

/-- A hexadecimal digit is read back. -/
theorem hexVal_hexDigit : ∀ d < 16, hexVal (hexDigit d) = some d := by decide

/-- Four digits of a code unit are read as that unit. -/
theorem hexUnit_hexText {u : ℕ} (hu : u < 0x10000) :
    ∃ a b c d, hexText 4 u = [a, b, c, d] ∧ hexUnit a b c d = some (Fin.ofNat 0x110000 u) := by
  refine ⟨_, _, _, _, rfl, ?_⟩
  have hdigit : ∀ n, hexVal (hexDigit (n % 16)) = some (n % 16) :=
    fun n => hexVal_hexDigit _ (Nat.mod_lt n (by omega))
  simp only [hexUnit, hdigit, Option.bind_eq_bind, Option.bind_some, Option.pure_def]
  congr 2
  omega

/-- An escaped code unit is read as one piece. -/
theorem scan_unitEscape {u : ℕ} (hu : u < 0x10000) (r : Str) :
    scan (unitEscape u ++ r) = (scan r).map (Piece.unit (Fin.ofNat 0x110000 u)).before := by
  obtain ⟨a, b, c, d, htext, hunit⟩ := hexUnit_hexText hu
  rw [unitEscape, htext]
  exact scan_unit hunit r

/-- The escape of a code unit is read back. -/
theorem reads_unitEscape {c : CodePoint} (hc : c.val < 0x10000) : Reads (unitEscape c.val) c := by
  refine ⟨_, .unit c, fun r => ?_⟩
  rw [scan_unitEscape hc, Fin.ofNat_val_eq_self]
  rfl

/-- The two halves of a character above the basic plane are read as that character. -/
theorem reads_pair {c : CodePoint} (hc : 0x10000 ≤ c.val) :
    Reads (unitEscape (0xd800 + (c.val - 0x10000) / 0x400) ++
      unitEscape (0xdc00 + (c.val - 0x10000) % 0x400)) c := by
  have hlt := c.isLt
  have hlow : (c.val - 0x10000) % 0x400 < 0x400 := Nat.mod_lt _ (by omega)
  set h : CodePoint := Fin.ofNat 0x110000 (0xd800 + (c.val - 0x10000) / 0x400) with hh
  set l : CodePoint := Fin.ofNat 0x110000 (0xdc00 + (c.val - 0x10000) % 0x400) with hl
  have hhval : h.val = 0xd800 + (c.val - 0x10000) / 0x400 := Nat.mod_eq_of_lt (by omega)
  have hlval : l.val = 0xdc00 + (c.val - 0x10000) % 0x400 := Nat.mod_eq_of_lt (by omega)
  -- the two halves hold twenty bits of the code point, ten each
  have hjoin : joinPair h l = c := by
    apply Fin.ext
    rw [joinPair, hhval, hlval]
    exact (Nat.mod_eq_of_lt (by omega)).trans (by omega)
  have hspell : Spells [.unit h, .unit l] (joinPair h l) :=
    .pair (by simp only [isHigh, decide_eq_true_eq]; omega)
      (by simp only [isLow, decide_eq_true_eq]; omega)
  refine ⟨_, hjoin ▸ hspell, fun r => ?_⟩
  rw [List.append_assoc, scan_unitEscape (by omega), scan_unitEscape (by omega), ← hh, ← hl]
  cases scan r <;> rfl

/-- The escape of a character is read back. -/
theorem reads_asciiEscape (c : CodePoint) : Reads (asciiEscape c) c := by
  unfold asciiEscape
  split_ifs with hquote hslash hn hr ht hf hb hplain hbasic
  · exact ⟨_, .char c, scan_short (by decide) (by rw [hquote]; rfl)⟩
  · exact ⟨_, .char c, scan_short (by decide) (by rw [hslash]; rfl)⟩
  -- the five control characters with a letter of their own
  · exact ⟨_, .char c, scan_short (by decide) (congrArg some (Fin.ext hn.symm))⟩
  · exact ⟨_, .char c, scan_short (by decide) (congrArg some (Fin.ext hr.symm))⟩
  · exact ⟨_, .char c, scan_short (by decide) (congrArg some (Fin.ext ht.symm))⟩
  · exact ⟨_, .char c, scan_short (by decide) (congrArg some (Fin.ext hf.symm))⟩
  · exact ⟨_, .char c, scan_short (by decide) (congrArg some (Fin.ext hb.symm))⟩
  · exact ⟨_, .char c, scan_char hquote hslash hplain.1⟩
  · exact reads_unitEscape hbasic
  · exact reads_pair (by omega)

/-- A quoted text of readable characters is loaded as that text. -/
theorem loads_quoted {e : CodePoint → Str} (he : ∀ c, Reads (e c) c) {s : Str} (hs : Unpaired s) :
    loads (cp '"' :: (s.flatMap e ++ [cp '"'])) = some (.str s) := by
  obtain ⟨ps, hps, hscan⟩ := scan_flatMap he s []
  have htrim : trim isJsonSpace (cp '"' :: (s.flatMap e ++ [cp '"'])) =
      cp '"' :: (s.flatMap e ++ [cp '"']) := by
    apply trim_eq_self
    · simp [isJsonSpace, cp]
    · simp [isJsonSpace, cp, List.getLast?_cons]
  rw [loads, htrim]
  simp only [if_true, hscan, hps.assemble_eq hs]

/-- A truth value is read back. -/
theorem loads_dumps_bool (b : Bool) : loads (dumps (.bool b)) = some (.bool b) := by
  unfold dumps loads
  repeat rw [lit_eq_map rfl]
  cases b
  · rfl
  · rfl

end AsciiJson
