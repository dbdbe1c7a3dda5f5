import Ghpulse.Library.JsonText

/-!
# Quoted strings

How PostgreSQL writes a string inside a `jsonb` value and how Python's `repr` writes the same string.
The two share the escapes of the backslash, of the double quote and of `\n`, `\r`, `\t`, and no other
escape of one is a prefix of an escape of the other, so a quoted string of either kind can be told
apart from the text after it.
-/

namespace Python

/-- The lower-case hexadecimal digit of a value below sixteen. -/
def hexDigit (d : ℕ) : CodePoint := Fin.ofNat 0x110000 (if d < 10 then 0x30 + d else 0x57 + d)

/-- The last `width` hexadecimal digits of a number. -/
def hexText : ℕ → ℕ → Str
  | 0, _ => []
  | width + 1, n => hexText width (n / 16) ++ [hexDigit (n % 16)]

theorem mem_hexText {width n : ℕ} {c : CodePoint} (hc : c ∈ hexText width n) :
    ∃ d < 16, c = hexDigit d := by
  induction width generalizing n with
  | zero => cases hc
  | succ width ih =>
    rcases List.mem_append.mp hc with h | h
    · exact ih h
    · exact ⟨n % 16, Nat.mod_lt n (by omega), List.mem_singleton.mp h⟩

/-- One character of a JSON string, as PostgreSQL's `escape_json` writes it. -/
def jsonEscape (c : CodePoint) : Str :=
  if c = cp '"' then [cp '\\', cp '"']
  else if c = cp '\\' then [cp '\\', cp '\\']
  else if c.val = 0x8 then [cp '\\', cp 'b']
  else if c.val = 0xc then [cp '\\', cp 'f']
  else if c.val = 0xa then [cp '\\', cp 'n']
  else if c.val = 0xd then [cp '\\', cp 'r']
  else if c.val = 0x9 then [cp '\\', cp 't']
  else if c.val < 0x20 then cp '\\' :: cp 'u' :: hexText 4 c.val
  else [c]

/-- A JSON string as PostgreSQL writes it. -/
def jsonQuote (s : Str) : Str := cp '"' :: (s.flatMap jsonEscape ++ [cp '"'])

/-- One character of `repr(s)` between quotes `q`; `printable` is `str.isprintable`. -/
def reprEscape (printable : CodePoint → Bool) (q c : CodePoint) : Str :=
  if c = q ∨ c = cp '\\' then [cp '\\', c]
  else if c.val = 0x9 then [cp '\\', cp 't']
  else if c.val = 0xa then [cp '\\', cp 'n']
  else if c.val = 0xd then [cp '\\', cp 'r']
  else if c.val < 0x20 ∨ c.val = 0x7f then cp '\\' :: cp 'x' :: hexText 2 c.val
  else if c.val < 0x7f ∨ printable c then [c]
  else if c.val ≤ 0xff then cp '\\' :: cp 'x' :: hexText 2 c.val
  else if c.val ≤ 0xffff then cp '\\' :: cp 'u' :: hexText 4 c.val
  else cp '\\' :: cp 'U' :: hexText 8 c.val

/-- The quotes of `repr(s)`: double ones only around a text with single quotes and no double ones. -/
def reprQuote (s : Str) : CodePoint := if cp '\'' ∈ s ∧ cp '"' ∉ s then cp '"' else cp '\''

/-- `repr(s)`. -/
def repr (printable : CodePoint → Bool) (s : Str) : Str :=
  reprQuote s :: (s.flatMap (reprEscape printable (reprQuote s)) ++ [reprQuote s])

/-! ## Telling the two apart

Character by character: two escapes of the same character are equal, or they differ before either of them
ends. So two quoted texts of one string are equal or split somewhere inside.
-/

/-- A character that JSON does not escape stands for itself. -/
theorem jsonEscape_of_le {c : CodePoint} (hquote : c ≠ cp '"') (hslash : c ≠ cp '\\')
    (h : 0x20 ≤ c.val) : jsonEscape c = [c] := by
  unfold jsonEscape
  rw [if_neg hquote, if_neg hslash, if_neg (by omega), if_neg (by omega), if_neg (by omega),
    if_neg (by omega), if_neg (by omega), if_neg (by omega)]

/-- Every escape of `repr` starts with a backslash. -/
theorem reprEscape_eq (printable : CodePoint → Bool) (q c : CodePoint) :
    reprEscape printable q c = [c] ∧ c ≠ q ∧ c ≠ cp '\\' ∨
      ∃ t, reprEscape printable q c = cp '\\' :: t := by
  unfold reprEscape
  split_ifs with hslash
  all_goals first
    | exact Or.inr ⟨_, rfl⟩
    | exact Or.inl ⟨rfl, by tauto⟩

/-- Between double quotes the two escapes of a character are equal or differ within both of them. -/
theorem escape_cut (printable : CodePoint → Bool) {c : CodePoint} {r r' : Str}
    (h : jsonEscape c ++ r = reprEscape printable (cp '"') c ++ r') :
    jsonEscape c = reprEscape printable (cp '"') c ∧ r = r' := by
  suffices heq : jsonEscape c = reprEscape printable (cp '"') c by
    rw [heq] at h
    exact ⟨heq, List.append_cancel_left h⟩
  by_cases hquote : c = cp '"'
  · subst hquote
    rfl
  by_cases hslash : c = cp '\\'
  · subst hslash
    rfl
  by_cases hlow : 0x20 ≤ c.val
  · -- JSON leaves the character as it is, so an escape of `repr` shows at its backslash
    rw [jsonEscape_of_le hquote hslash hlow] at h ⊢
    rcases reprEscape_eq printable (cp '"') c with hc | ⟨t, ht⟩
    · exact hc.1.symm
    · rw [ht] at h
      exact absurd (List.cons.inj h).1 hslash
  · -- both escape a control character; the letters after the backslash are compared
    unfold jsonEscape reprEscape at h ⊢
    rw [if_neg hquote, if_neg hslash] at h ⊢
    rw [if_neg (by tauto : ¬(c = cp '"' ∨ c = cp '\\'))] at h ⊢
    have hctrl : c.val < 0x20 ∨ c.val = 0x7f := by omega
    split_ifs at h ⊢ <;> first
      | rfl
      | omega
      | exact absurd (List.cons.inj (List.cons.inj h).2).1 (by decide)

/-- The bodies of the two texts, up to the closing quote. -/
theorem flatMap_escape_cut (printable : CodePoint → Bool) {s r r' : Str}
    (h : s.flatMap jsonEscape ++ cp '"' :: r =
      s.flatMap (reprEscape printable (cp '"')) ++ cp '"' :: r') :
    s.flatMap jsonEscape = s.flatMap (reprEscape printable (cp '"')) ∧ r = r' := by
  induction s with
  | nil => exact ⟨rfl, (List.cons.inj h).2⟩
  | cons c s ih =>
    simp only [List.flatMap_cons, List.append_assoc] at h ⊢
    obtain ⟨hc, hs⟩ := escape_cut printable h
    obtain ⟨hrest, hr⟩ := ih hs
    exact ⟨by rw [hc, hrest], hr⟩

/-- A JSON string and the `repr` of the same text are equal or end at different places. -/
theorem quote_cut (printable : CodePoint → Bool) {s r r' : Str}
    (h : jsonQuote s ++ r = repr printable s ++ r') :
    jsonQuote s = repr printable s ∧ r = r' := by
  unfold jsonQuote repr at h ⊢
  simp only [List.cons_append, List.append_assoc, List.nil_append, List.cons.injEq] at h
  obtain ⟨hq, h⟩ := h
  rw [← hq] at h ⊢
  obtain ⟨hbody, hr⟩ := flatMap_escape_cut printable h
  exact ⟨by rw [hbody], hr⟩

end Python
