import Ghpulse.Library.AsciiJson
import Ghpulse.Library.Utf8
import Mathlib.Data.List.SplitBy

/-!
# `application/x-www-form-urlencoded`

The query of a URL as a browser's `URLSearchParams` writes and reads it, and as Python's
`urllib.parse.parse_qsl` reads it. Both take a query apart at the same characters; they differ in what they
make of a text that is not ASCII.
-/

open Python

namespace FormUrl

/-! ## Writing

The text is encoded as UTF-8 first, and each byte by itself.
-/

/-- A byte that stands for itself. -/
def isPlain (b : ℕ) : Bool :=
  decide (0x30 ≤ b ∧ b ≤ 0x39 ∨ 0x41 ≤ b ∧ b ≤ 0x5a ∨ 0x61 ≤ b ∧ b ≤ 0x7a ∨
    b = 0x2a ∨ b = 0x2d ∨ b = 0x2e ∨ b = 0x5f)

/-- An upper-case hexadecimal digit. -/
def upperHex (n : ℕ) : CodePoint := Fin.ofNat 0x110000 (if n < 10 then 0x30 + n else 0x37 + n)

/-- A byte, percent-encoded unless it is plain or a space. -/
def encodeByte (b : ℕ) : Str :=
  if b = 0x20 then [cp '+']
  else if isPlain b then [Fin.ofNat 0x110000 b]
  else [cp '%', upperHex (b / 16), upperHex (b % 16)]

/-- A JavaScript string as a `USVString`: a lone surrogate is replaced. -/
def scalarText (s : Str) : Str :=
  s.map fun c => if c.val < 0xd800 ∨ 0xdfff < c.val then c else Utf8.replacement

/-- A name or a value. -/
def encodeText (s : Str) : Str := (Utf8.encode (scalarText s)).flatMap encodeByte

/-- A name and its value. -/
def encodeField (p : Str × Str) : Str := encodeText p.1 ++ cp '=' :: encodeText p.2

/-- `URLSearchParams.toString`. -/
def serialize (params : List (Str × Str)) : Str := [cp '&'].intercalate (params.map encodeField)

/-! ## Reading

A browser decodes the bytes of the whole text at once; Python decodes the runs of ASCII in it and leaves
the rest. On what a browser has written the two agree, since that is ASCII.
-/

/-- The bytes that a text stands for: `%` and two hexadecimal digits are a byte, any other character is
encoded. -/
def percentDecode : Str → List ℕ
  | [] => []
  | c :: rest =>
    if c = cp '%' then
      match rest with
      | h :: l :: tail =>
        match AsciiJson.hexVal h, AsciiJson.hexVal l with
        | some high, some low => (high * 16 + low) :: percentDecode tail
        | _, _ => 0x25 :: percentDecode (h :: l :: tail)
      | rest => 0x25 :: percentDecode rest
    else Utf8.encodeChar c ++ percentDecode rest

/-- A plus sign is a space. -/
def plusToSpace (s : Str) : Str := s.map fun c => if c = cp '+' then cp ' ' else c

/-- How a browser reads a name or a value. -/
def decodeText (s : Str) : Str := Utf8.decode (percentDecode (plusToSpace (scalarText s)))

/-- `urllib.parse.unquote`: runs of ASCII are decoded, what is between them stays. -/
def unquote (s : Str) : Str :=
  if s.any fun c => decide (c = cp '%') then
    (s.splitBy fun a b => decide (isAscii [a] = isAscii [b])).flatMap fun part =>
      if isAscii part then Utf8.decode (percentDecode part) else part
  else s

/-- The names and values of a query; an empty field is skipped. -/
def fields (decode : Str → Str) (query : Str) : List (Str × Str) :=
  ((query.splitOn (cp '&')).filter (· ≠ [])).map fun field =>
    (decode (cut (cp '=') field).1, decode (cut (cp '=') field).2)

/-- `new URLSearchParams(query)`, of a query without its `?`. -/
def parse (query : Str) : List (Str × Str) := fields decodeText query

/-- `urllib.parse.parse_qsl(query, keep_blank_values=True)`. -/
def parseQsl (query : Str) : List (Str × Str) := fields (fun s => unquote (plusToSpace s)) query

/-! ## Parameters

Lists of pairs in which a name may occur several times.
-/

/-- `URLSearchParams.get`: the first value of a name. -/
def get (params : List (Str × Str)) (name : Str) : Option Str :=
  (params.find? fun p => p.1 = name).map Prod.snd

/-- `URLSearchParams.delete`. -/
def delete (params : List (Str × Str)) (name : Str) : List (Str × Str) :=
  params.filter fun p => p.1 ≠ name

/-- `URLSearchParams.set`: the first of the name takes the value, and the others go. -/
def set (name value : Str) : List (Str × Str) → List (Str × Str)
  | [] => [(name, value)]
  | p :: params => if p.1 = name then (name, value) :: delete params name else p :: set name value params

/-- `get` finds the first pair of the name. -/
theorem get_cons (p : Str × Str) (params : List (Str × Str)) (name : Str) :
    get (p :: params) name = if p.1 = name then some p.2 else get params name := by
  unfold get
  rw [List.find?_cons]
  by_cases h : p.1 = name
  · rw [if_pos h, decide_eq_true h]
    rfl
  · rw [if_neg h, decide_eq_false h]

/-- `delete` drops the pairs of the name one by one. -/
theorem delete_cons (p : Str × Str) (params : List (Str × Str)) (name : Str) :
    delete (p :: params) name = if p.1 = name then delete params name else p :: delete params name := by
  unfold delete
  by_cases h : p.1 = name
  · rw [if_pos h, List.filter_cons_of_neg (by simpa using h)]
  · rw [if_neg h, List.filter_cons_of_pos (by simpa using h)]

/-- What was set is read back. -/
theorem get_set_self (name value : Str) (params : List (Str × Str)) :
    get (set name value params) name = some value := by
  induction params with
  | nil => rw [set, get_cons, if_pos rfl]
  | cons p params ih =>
    unfold set
    split_ifs with h
    · rw [get_cons, if_pos rfl]
    · rw [get_cons, if_neg h, ih]

/-- Deleting a name does not touch another one. -/
theorem get_delete_of_ne {name name' : Str} (h : name' ≠ name) (params : List (Str × Str)) :
    get (delete params name) name' = get params name' := by
  induction params with
  | nil => rfl
  | cons p params ih =>
    rw [delete_cons, get_cons]
    split_ifs with hname hname'
    · exact absurd (hname'.symm.trans hname) h
    · exact ih
    · rw [get_cons, if_pos ‹_›]
    · rw [get_cons, if_neg ‹_›, ih]

/-- A deleted name is not found. -/
theorem get_delete_self (name : Str) (params : List (Str × Str)) : get (delete params name) name = none := by
  induction params with
  | nil => rfl
  | cons p params ih =>
    rw [delete_cons]
    split_ifs with h
    · exact ih
    · rw [get_cons, if_neg h, ih]

/-- Setting a name does not touch another one. -/
theorem get_set_of_ne {name name' : Str} (h : name' ≠ name) (value : Str) (params : List (Str × Str)) :
    get (set name value params) name' = get params name' := by
  induction params with
  | nil => rw [set, get_cons, if_neg (Ne.symm h)]
  | cons p params ih =>
    unfold set
    split_ifs with hname
    · rw [get_cons, if_neg (Ne.symm h), get_delete_of_ne h, get_cons, if_neg (hname.trans_ne (Ne.symm h))]
    · rw [get_cons, get_cons, ih]

/-- The parameters of other names stay, in their order. -/
theorem delete_set (name value : Str) (params : List (Str × Str)) :
    delete (set name value params) name = delete params name := by
  induction params with
  | nil => rw [set, delete_cons, if_pos rfl]
  | cons p params ih =>
    unfold set
    split_ifs with h
    · rw [delete_cons, if_pos rfl, delete_cons, if_pos h]
      exact List.filter_filter.trans (List.filter_congr fun q _ => Bool.and_self _)
    · rw [delete_cons, if_neg h, delete_cons, if_neg h, ih]

/-- A property of all pairs is kept by deleting some. -/
theorem forall_mem_delete {P : Str × Str → Prop} {params : List (Str × Str)} (h : ∀ p ∈ params, P p)
    (name : Str) : ∀ p ∈ delete params name, P p :=
  fun p hp => h p (List.mem_of_mem_filter hp)

/-- A property of all pairs is kept by setting one that has it. -/
theorem forall_mem_set {P : Str × Str → Prop} {name value : Str} (hvalue : P (name, value))
    {params : List (Str × Str)} (h : ∀ p ∈ params, P p) : ∀ p ∈ set name value params, P p := by
  induction params with
  | nil => exact List.forall_mem_singleton.mpr hvalue
  | cons p params ih =>
    rw [List.forall_mem_cons] at h
    unfold set
    split_ifs
    · exact List.forall_mem_cons.mpr ⟨hvalue, forall_mem_delete h.2 name⟩
    · exact List.forall_mem_cons.mpr ⟨h.1, ih h.2⟩

/-- The order in which two names are deleted does not matter. -/
theorem delete_delete_comm (params : List (Str × Str)) (name name' : Str) :
    delete (delete params name) name' = delete (delete params name') name := by
  unfold delete
  rw [List.filter_filter, List.filter_filter]
  exact List.filter_congr fun p _ => Bool.and_comm _ _

/-! ## One byte

What a byte is written as, and that it is read back whatever follows.
-/

/-- A character that is no percent sign stands for its own bytes. -/
theorem percentDecode_cons_of_ne {c : CodePoint} (h : c ≠ cp '%') (rest : Str) :
    percentDecode (c :: rest) = Utf8.encodeChar c ++ percentDecode rest :=
  (percentDecode.eq_def (c :: rest)).trans (if_neg h)

/-- A percent sign with two digits stands for one byte. -/
theorem percentDecode_escape {h l : CodePoint} {high low : ℕ} (hhigh : AsciiJson.hexVal h = some high)
    (hlow : AsciiJson.hexVal l = some low) (rest : Str) :
    percentDecode (cp '%' :: h :: l :: rest) = (high * 16 + low) :: percentDecode rest := by
  rw [percentDecode, if_pos rfl]
  simp only [hhigh, hlow]

/-- Upper case digits are read back. -/
theorem hexVal_upperHex : ∀ d < 16, AsciiJson.hexVal (upperHex d) = some d := by decide

/-- What a byte is written as: a plain character, a plus sign, or an escape. -/
theorem encodeByte_cases {b : ℕ} (hb : b < 256) :
    encodeByte b = [cp '+'] ∧ b = 0x20 ∨
    (∃ c : CodePoint, c.val = b ∧ b < 0x80 ∧ isPlain b = true ∧ encodeByte b = [c]) ∨
    ∃ high < 16, ∃ low < 16, b = high * 16 + low ∧ encodeByte b = [cp '%', upperHex high, upperHex low] := by
  unfold encodeByte
  split_ifs with hspace hplain
  · exact Or.inl ⟨rfl, hspace⟩
  · refine Or.inr (Or.inl ⟨Fin.ofNat 0x110000 b, ?_, ?_, hplain, rfl⟩)
    · exact Nat.mod_eq_of_lt (by omega)
    · have := of_decide_eq_true hplain
      omega
  · exact Or.inr (Or.inr ⟨b / 16, by omega, b % 16, by omega, by omega, rfl⟩)

/-- The characters of an encoded text: none of them takes a query apart. -/
def isSafe (c : CodePoint) : Bool := isPlain c.val || decide (c = cp '+') || decide (c = cp '%')

/-- A hexadecimal digit is not escaped. -/
theorem isSafe_upperHex : ∀ d < 16, isSafe (upperHex d) = true := by decide

/-- The text of a byte needs no further escape. -/
theorem isSafe_of_mem_encodeByte {b : ℕ} (hb : b < 256) {c : CodePoint} (hc : c ∈ encodeByte b) :
    isSafe c = true := by
  obtain ⟨h, -⟩ | ⟨d, hd, -, hplain, h⟩ | ⟨high, hhigh, low, hlow, -, h⟩ := encodeByte_cases hb
  · rw [h, List.mem_singleton] at hc
    exact hc ▸ rfl
  · rw [h, List.mem_singleton] at hc
    rw [hc, isSafe, hd, hplain]
    rfl
  · rw [h] at hc
    rcases List.mem_cons.mp hc with rfl | hc
    · rfl
    rcases List.mem_cons.mp hc with rfl | hc
    · exact isSafe_upperHex high hhigh
    · exact List.mem_singleton.mp hc ▸ isSafe_upperHex low hlow

/-- A hexadecimal digit is no plus sign. -/
theorem upperHex_ne_plus : ∀ d < 16, upperHex d ≠ cp '+' := by decide

/-- Only a plus sign turns into a blank. -/
theorem plusToSpace_cons_of_ne {c : CodePoint} (h : c ≠ cp '+') (s : Str) :
    plusToSpace (c :: s) = c :: plusToSpace s := by
  rw [plusToSpace, List.map_cons, if_neg h]
  rfl

/-- A byte is read back. -/
theorem percentDecode_encodeByte {b : ℕ} (hb : b < 256) (rest : Str) :
    percentDecode (plusToSpace (encodeByte b) ++ rest) = b :: percentDecode rest := by
  obtain ⟨h, rfl⟩ | ⟨c, rfl, hascii, hplain, h⟩ | ⟨high, hhigh, low, hlow, rfl, h⟩ := encodeByte_cases hb
  · rw [h]
    exact percentDecode_cons_of_ne (by decide) rest
  · have hc (d : CodePoint) (hd : isPlain d.val = false) : c ≠ d := by
      rintro rfl
      exact Bool.noConfusion (hplain.symm.trans hd)
    rw [h, plusToSpace_cons_of_ne (hc _ rfl)]
    refine (percentDecode_cons_of_ne (hc _ rfl) rest).trans ?_
    rw [Utf8.encodeChar, if_pos hascii]
    rfl
  · rw [h, plusToSpace_cons_of_ne (by decide), plusToSpace_cons_of_ne (upperHex_ne_plus high hhigh),
      plusToSpace_cons_of_ne (upperHex_ne_plus low hlow)]
    exact percentDecode_escape (hexVal_upperHex high hhigh) (hexVal_upperHex low hlow) rest

/-! ## A name or a value

None of the characters that take a query apart occurs in an encoded text.
-/

/-- A text without its surrogates can be encoded. -/
theorem encodable_scalarText (s : Str) : encodable (scalarText s) = true := by
  refine List.all_eq_true.mpr fun c hc => decide_eq_true ?_
  obtain ⟨d, -, rfl⟩ := List.mem_map.mp hc
  split_ifs with h
  · exact h
  · exact Or.inr (by decide)

/-- A text that can be encoded has no surrogate to replace. -/
theorem scalarText_of_encodable {s : Str} (h : encodable s = true) : scalarText s = s := by
  refine (List.map_congr_left fun c hc => ?_).trans (List.map_id s)
  exact if_pos (of_decide_eq_true (List.all_eq_true.mp h c hc))

/-- ASCII can be encoded. -/
theorem encodable_of_isAscii {s : Str} (h : isAscii s = true) : encodable s = true := by
  refine List.all_eq_true.mpr fun c hc => decide_eq_true (Or.inl ?_)
  have := of_decide_eq_true (List.all_eq_true.mp h c hc)
  omega

/-- Encoded bytes are read back. -/
theorem percentDecode_encodeBytes {bytes : List ℕ} (h : ∀ b ∈ bytes, b < 256) :
    percentDecode (plusToSpace (bytes.flatMap encodeByte)) = bytes := by
  induction bytes with
  | nil => rfl
  | cons b bytes ih =>
    rw [List.forall_mem_cons] at h
    have hsplit : plusToSpace ((b :: bytes).flatMap encodeByte) =
        plusToSpace (encodeByte b) ++ plusToSpace (bytes.flatMap encodeByte) := by
      rw [List.flatMap_cons]
      exact List.map_append
    rw [hsplit, percentDecode_encodeByte h.1, ih h.2]

/-- An encoded text needs no further escape. -/
theorem isSafe_of_mem_encodeText {s : Str} {c : CodePoint} (hc : c ∈ encodeText s) :
    isSafe c = true := by
  obtain ⟨b, hb, hc⟩ := List.mem_flatMap.mp hc
  exact isSafe_of_mem_encodeByte (Utf8.lt_of_mem_encode hb) hc

/-- A text of characters that need no escape is ASCII. -/
theorem isAscii_of_isSafe {s : Str} (h : ∀ c ∈ s, isSafe c = true) : isAscii s = true := by
  refine List.all_eq_true.mpr fun c hc => decide_eq_true ?_
  have hsafe := h c hc
  rw [isSafe, Bool.or_eq_true, Bool.or_eq_true, decide_eq_true_iff, decide_eq_true_iff] at hsafe
  rcases hsafe with (hplain | rfl) | rfl
  · have := of_decide_eq_true hplain
    omega
  · decide
  · decide

/-- What a browser writes it reads back. -/
theorem decodeText_encodeText (s : Str) : decodeText (encodeText s) = scalarText s := by
  have hascii : isAscii (encodeText s) = true := isAscii_of_isSafe fun _ => isSafe_of_mem_encodeText
  rw [decodeText, scalarText_of_encodable (encodable_of_isAscii hascii), encodeText,
    percentDecode_encodeBytes fun _ => Utf8.lt_of_mem_encode,
    Utf8.decode_encode (encodable_scalarText s)]

/-- A text without a percent sign stands for its own bytes. -/
theorem percentDecode_of_not_mem {s : Str} (h : cp '%' ∉ s) : percentDecode s = Utf8.encode s := by
  induction s with
  | nil => rfl
  | cons c s ih =>
    rw [List.mem_cons, not_or] at h
    rw [percentDecode_cons_of_ne (Ne.symm h.1), ih h.2]
    rfl

/-- A text of ASCII is decoded as a whole. -/
theorem unquote_of_isAscii {s : Str} (h : isAscii s = true) :
    unquote s = Utf8.decode (percentDecode s) := by
  unfold unquote
  split_ifs with hmem
  · obtain ⟨c, hc, -⟩ := List.any_eq_true.mp hmem
    have hne : s ≠ [] := List.ne_nil_of_mem hc
    have hchain : s.IsChain fun a b => decide (isAscii [a] = isAscii [b]) = true := by
      refine List.Pairwise.isChain (List.pairwise_of_forall_mem_list fun a ha b hb => ?_)
      have hone (d : CodePoint) (hd : d ∈ s) : isAscii [d] = true :=
        List.all_eq_true.mpr (List.forall_mem_singleton.mpr (List.all_eq_true.mp h d hd))
      rw [hone a ha, hone b hb]
      rfl
    rw [List.splitBy_of_isChain hne hchain, List.flatMap_cons, List.flatMap_nil, List.append_nil, if_pos h]
  · have hnot : cp '%' ∉ s := fun hc => hmem (List.any_eq_true.mpr ⟨_, hc, decide_eq_true rfl⟩)
    rw [percentDecode_of_not_mem hnot, Utf8.decode_encode (encodable_of_isAscii h)]

/-- Blanks for plus signs leave a text in ASCII. -/
theorem isAscii_plusToSpace {s : Str} (h : isAscii s = true) : isAscii (plusToSpace s) = true := by
  refine List.all_eq_true.mpr fun c hc => ?_
  obtain ⟨d, hd, rfl⟩ := List.mem_map.mp hc
  split_ifs
  · rfl
  · exact List.all_eq_true.mp h d hd

/-- What a browser writes is what Python reads. -/
theorem unquote_encodeText (s : Str) : unquote (plusToSpace (encodeText s)) = scalarText s := by
  have hascii : isAscii (encodeText s) = true := isAscii_of_isSafe fun _ => isSafe_of_mem_encodeText
  rw [unquote_of_isAscii (isAscii_plusToSpace hascii), encodeText,
    percentDecode_encodeBytes fun _ => Utf8.lt_of_mem_encode,
    Utf8.decode_encode (encodable_scalarText s)]

/-! ## A query

The pairs come back in their order. What a query cannot carry is a pair of empty texts, which is skipped,
and lone surrogates, which are replaced.
-/

/-- What is escaped does not occur in an encoded text. -/
theorem not_mem_encodeText {c : CodePoint} (hc : isSafe c = false) (s : Str) : c ∉ encodeText s := by
  intro h
  exact Bool.noConfusion (hc.symm.trans (isSafe_of_mem_encodeText h))

/-- The pairs that are written are read back, with lone surrogates replaced. -/
theorem fields_serialize {decode : Str → Str} (hdecode : ∀ s, decode (encodeText s) = scalarText s)
    (params : List (Str × Str)) :
    fields decode (serialize params) = params.map fun p => (scalarText p.1, scalarText p.2) := by
  cases params with
  | nil => rfl
  | cons p params =>
    -- no field has an ampersand of its own
    have hamp : ∀ field ∈ (p :: params).map encodeField, cp '&' ∉ field := by
      intro field hfield hmem
      obtain ⟨q, -, rfl⟩ := List.mem_map.mp hfield
      rcases List.mem_append.mp hmem with hmem | hmem
      · exact not_mem_encodeText rfl _ hmem
      · rcases List.mem_cons.mp hmem with heq | hmem
        · exact absurd heq (by decide)
        · exact not_mem_encodeText rfl _ hmem
    -- nor is one empty: it has an equals sign
    have hfilter : ((p :: params).map encodeField).filter (· ≠ []) = (p :: params).map encodeField := by
      refine List.filter_eq_self.mpr fun field hfield => decide_eq_true ?_
      obtain ⟨q, -, rfl⟩ := List.mem_map.mp hfield
      exact List.append_ne_nil_of_right_ne_nil _ (List.cons_ne_nil _ _)
    rw [fields, serialize, List.splitOn_intercalate _ hamp (by simp), hfilter, List.map_map]
    refine List.map_congr_left fun q _ => ?_
    rw [Function.comp_apply, encodeField, cut_append (not_mem_encodeText rfl _), hdecode, hdecode]

/-- A pair that a query can carry. -/
def Carried (p : Str × Str) : Prop := encodable p.1 = true ∧ encodable p.2 = true

/-- Every pair that is parsed can be carried back. -/
theorem carried_of_mem_parse {query : Str} {p : Str × Str} (hp : p ∈ parse query) : Carried p := by
  obtain ⟨field, -, rfl⟩ := List.mem_map.mp hp
  exact ⟨Utf8.encodable_decode _, Utf8.encodable_decode _⟩

/-- Pairs that can be carried survive the round trip through a query. -/
theorem fields_serialize_of_carried {decode : Str → Str}
    (hdecode : ∀ s, decode (encodeText s) = scalarText s) {params : List (Str × Str)}
    (h : ∀ p ∈ params, Carried p) : fields decode (serialize params) = params := by
  rw [fields_serialize hdecode]
  refine (List.map_congr_left fun p hp => ?_).trans (List.map_id params)
  obtain ⟨hname, hvalue⟩ := h p hp
  rw [scalarText_of_encodable hname, scalarText_of_encodable hvalue]
  rfl

/-- A browser reads back what it wrote. -/
theorem parse_serialize {params : List (Str × Str)} (h : ∀ p ∈ params, Carried p) :
    parse (serialize params) = params :=
  fields_serialize_of_carried decodeText_encodeText h

/-- Python reads what a browser wrote. -/
theorem parseQsl_serialize {params : List (Str × Str)} (h : ∀ p ∈ params, Carried p) :
    parseQsl (serialize params) = params :=
  fields_serialize_of_carried unquote_encodeText h

end FormUrl
