import Ghpulse.Library.PyStr

/-!
# JSON values and their texts

A JSON value with an arbitrary type of non-integer numbers, and two ways of writing it down: the text
PostgreSQL gives a `jsonb` value and the text Python's `str` gives the decoded value. Both use the
separators `", "` and `": "`; they differ in the constants, in non-integer numbers and in how a nested
string is quoted. `sameText` says where they agree, and `render_eq_render_iff` that they agree nowhere
else.
-/

open Python

/-- A JSON value; `ν` is the type of the numbers that have a fraction or an exponent. -/
inductive Json (ν : Type) where
  | null
  | bool (b : Bool)
  | int (z : ℤ)
  | num (x : ν)
  | str (s : Str)
  | list (items : List (Json ν))
  | dict (fields : List (Str × Json ν))

namespace Json

variable {ν : Type}

/-- The characters that may follow a value inside a container. -/
def isDelimiter (c : CodePoint) : Bool :=
  c == cp ',' || c == cp ':' || c == cp ']' || c == cp '}'

/-- A non-empty text without white space and without delimiters. -/
def Plain (t : Str) : Prop := t ≠ [] ∧ ∀ c ∈ t, isSpace c = false ∧ isDelimiter c = false

/-- A check of `Plain` that can be evaluated. -/
theorem plain_of_all {t : Str} (hne : t ≠ [])
    (h : (t.all fun c => !isSpace c && !isDelimiter c) = true) : Plain t :=
  ⟨hne, fun c hc => by simpa using List.all_eq_true.mp h c hc⟩

/-- The end of the text, or a delimiter. -/
def Delimited (r : Str) : Prop := ∀ c ∈ r.head?, isDelimiter c = true

/-- The end of a text delimits. -/
theorem delimited_nil : Delimited [] := by simp [Delimited]

/-- So does a delimiter. -/
theorem delimited_cons {c : CodePoint} {r : Str} (h : isDelimiter c = true) : Delimited (c :: r) := by
  simpa [Delimited] using h

/-- How the leaves of a value are written. -/
structure Style (ν : Type) where
  /-- The text of `null`. -/
  null : Str
  /-- The text of a boolean. -/
  bool : Bool → Str
  /-- The text of a number with a fraction. -/
  num : ν → Str
  /-- The text of a string inside a container. -/
  quote : Str → Str
  null_plain : Plain null
  bool_plain : ∀ b, Plain (bool b)
  num_plain : ∀ x, Plain (num x)

/-! ## Rendering

The functions are mutually recursive along the value, with one for the rest of a container, so that a
separator stands before every element but the first.
-/

mutual

/-- The text of a value inside a container. -/
def render (st : Style ν) : Json ν → Str
  | .null => st.null
  | .bool b => st.bool b
  | .int z => intText z
  | .num x => st.num x
  | .str s => st.quote s
  | .list items => cp '[' :: (renderItems st items ++ [cp ']'])
  | .dict fields => cp '{' :: (renderFields st fields ++ [cp '}'])

/-- The elements of a list, separated by `", "`. -/
def renderItems (st : Style ν) : List (Json ν) → Str
  | [] => []
  | v :: vs => render st v ++ renderMoreItems st vs

/-- The elements after the first one. -/
def renderMoreItems (st : Style ν) : List (Json ν) → Str
  | [] => []
  | v :: vs => cp ',' :: cp ' ' :: (render st v ++ renderMoreItems st vs)

/-- The fields of an object, separated by `", "`. -/
def renderFields (st : Style ν) : List (Str × Json ν) → Str
  | [] => []
  | (k, v) :: fs => st.quote k ++ cp ':' :: cp ' ' :: (render st v ++ renderMoreFields st fs)

/-- The fields after the first one. -/
def renderMoreFields (st : Style ν) : List (Str × Json ν) → Str
  | [] => []
  | (k, v) :: fs => cp ',' :: cp ' ' ::
      (st.quote k ++ cp ':' :: cp ' ' :: (render st v ++ renderMoreFields st fs))

end

/-- The text of a whole value: a string stands for itself, without quotes. -/
def text (st : Style ν) : Json ν → Str
  | .str s => s
  | v => render st v

/-! ## Agreement of two styles

The idea: two texts that start with different leaves cannot be equal, if a leaf can be told from what
follows it. After a leaf comes the end or a delimiter, and no leaf but a quoted one contains a delimiter;
for quoted leaves this is the hypothesis `Cut`.
-/

mutual

/-- Whether both styles write every leaf and every key of the value alike. -/
def sameText (a b : Style ν) : Json ν → Bool
  | .null => decide (a.null = b.null)
  | .bool x => decide (a.bool x = b.bool x)
  | .int _ => true
  | .num x => decide (a.num x = b.num x)
  | .str s => decide (a.quote s = b.quote s)
  | .list items => sameItems a b items
  | .dict fields => sameFields a b fields

/-- `sameText` of every element. -/
def sameItems (a b : Style ν) : List (Json ν) → Bool
  | [] => true
  | v :: vs => sameText a b v && sameItems a b vs

/-- `sameText` of every field, keys included. -/
def sameFields (a b : Style ν) : List (Str × Json ν) → Bool
  | [] => true
  | (k, v) :: fs => decide (a.quote k = b.quote k) && (sameText a b v && sameFields a b fs)

end

/-- Two texts that can be told apart from what follows them: a text that starts with either of them
and goes on with a delimiter starts with only one of them. -/
def Cut (x y : Str) : Prop :=
  ∀ r r', Delimited r → Delimited r' → x ++ r = y ++ r' → x = y ∧ r = r'

/-- Plain texts end where the first delimiter stands. -/
theorem Plain.cut {x y : Str} (hx : Plain x) (hy : Plain y) : Cut x y := by
  have hnot {t : Str} (ht : Plain t) : ∀ c ∈ t, (!isDelimiter c) = true := by
    intro c hc
    rw [(ht.2 c hc).2]
    rfl
  have htake {t r : Str} (ht : Plain t) (hr : Delimited r) :
      (t ++ r).takeWhile (fun c => !isDelimiter c) = t := by
    rw [List.takeWhile_append_of_pos (hnot ht)]
    cases r with
    | nil => simp
    | cons c cs =>
      have hc : isDelimiter c = true := hr c rfl
      simp [hc]
  intro r r' hr hr' h
  have hxy : x = y := by rw [← htake hx hr, h, htake hy hr']
  refine ⟨hxy, ?_⟩
  rw [hxy] at h
  exact List.append_cancel_left h

/-- A digit does not. -/
theorem isDelimiter_digitChar {d : ℕ} (hd : d < 10) : isDelimiter (digitChar d) = false := by
  interval_cases d <;> rfl

/-- The text of an integer is plain. -/
theorem plain_intText (z : ℤ) : Plain (intText z) := by
  constructor
  · unfold intText
    split
    · simp
    · exact natText_ne_nil _
  · intro c hc
    refine ⟨isSpace_intText hc, ?_⟩
    rcases mem_intText hc with rfl | ⟨d, hd, rfl⟩
    · rfl
    · exact isDelimiter_digitChar hd

/-- What follows the first element of a list: a separator or the closing bracket. -/
theorem delimited_renderMoreItems (st : Style ν) (vs : List (Json ν)) {c : CodePoint} {r : Str}
    (h : isDelimiter c = true) : Delimited (renderMoreItems st vs ++ c :: r) := by
  cases vs with
  | nil => exact delimited_cons h
  | cons v vs =>
    rw [renderMoreItems]
    exact delimited_cons rfl

/-- What follows the first field of an object: a separator or the closing brace. -/
theorem delimited_renderMoreFields (st : Style ν) (fs : List (Str × Json ν)) {c : CodePoint} {r : Str}
    (h : isDelimiter c = true) : Delimited (renderMoreFields st fs ++ c :: r) := by
  cases fs with
  | nil => exact delimited_cons h
  | cons f fs =>
    rw [renderMoreFields]
    exact delimited_cons rfl

section Agreement

variable {a b : Style ν}

mutual

/-- Where both styles write the leaves alike, they write the value alike. -/
theorem render_of_sameText : ∀ {v : Json ν}, sameText a b v = true → render a v = render b v
  | .null, h => by simpa [sameText, render] using h
  | .bool x, h => by simpa [sameText, render] using h
  | .int z, _ => by simp [render]
  | .num x, h => by simpa [sameText, render] using h
  | .str s, h => by simpa [sameText, render] using h
  | .list items, h => by
    rw [sameText] at h
    rw [render, render]
    cases items with
    | nil => rfl
    | cons v vs =>
      rw [sameItems, Bool.and_eq_true] at h
      rw [renderItems, renderItems, render_of_sameText h.1, renderMoreItems_of_sameItems h.2]
  | .dict fields, h => by
    rw [sameText] at h
    rw [render, render]
    cases fields with
    | nil => rfl
    | cons f fs =>
      obtain ⟨k, v⟩ := f
      rw [sameFields, Bool.and_eq_true, Bool.and_eq_true, decide_eq_true_iff] at h
      rw [renderFields, renderFields, h.1, render_of_sameText h.2.1,
        renderMoreFields_of_sameFields h.2.2]

/-- Items whose leaves are written alike are written alike. -/
theorem renderMoreItems_of_sameItems :
    ∀ {vs : List (Json ν)}, sameItems a b vs = true → renderMoreItems a vs = renderMoreItems b vs
  | [], _ => by rw [renderMoreItems, renderMoreItems]
  | v :: vs, h => by
    rw [sameItems, Bool.and_eq_true] at h
    rw [renderMoreItems, renderMoreItems, render_of_sameText h.1, renderMoreItems_of_sameItems h.2]

/-- Likewise fields. -/
theorem renderMoreFields_of_sameFields :
    ∀ {fs : List (Str × Json ν)}, sameFields a b fs = true →
      renderMoreFields a fs = renderMoreFields b fs
  | [], _ => by rw [renderMoreFields, renderMoreFields]
  | (k, v) :: fs, h => by
    rw [sameFields, Bool.and_eq_true, Bool.and_eq_true, decide_eq_true_iff] at h
    rw [renderMoreFields, renderMoreFields, h.1, render_of_sameText h.2.1,
      renderMoreFields_of_sameFields h.2.2]

end

mutual

/-- Equal texts come from equally written leaves, whatever delimited text follows. -/
theorem sameText_of_render (hquote : ∀ s, Cut (a.quote s) (b.quote s)) :
    ∀ {v : Json ν} {r r' : Str}, Delimited r → Delimited r' →
      render a v ++ r = render b v ++ r' → sameText a b v = true ∧ r = r'
  | .null, r, r', hr, hr', h => by
    rw [render, render] at h
    have hcut := (a.null_plain.cut b.null_plain) r r' hr hr' h
    exact ⟨by rw [sameText, hcut.1, decide_eq_true rfl], hcut.2⟩
  | .bool x, r, r', hr, hr', h => by
    rw [render, render] at h
    have hcut := ((a.bool_plain x).cut (b.bool_plain x)) r r' hr hr' h
    exact ⟨by rw [sameText, hcut.1, decide_eq_true rfl], hcut.2⟩
  | .int z, r, r', hr, hr', h => by
    rw [render, render] at h
    exact ⟨by rw [sameText], List.append_cancel_left h⟩
  | .num x, r, r', hr, hr', h => by
    rw [render, render] at h
    have hcut := ((a.num_plain x).cut (b.num_plain x)) r r' hr hr' h
    exact ⟨by rw [sameText, hcut.1, decide_eq_true rfl], hcut.2⟩
  | .str s, r, r', hr, hr', h => by
    rw [render, render] at h
    have hcut := hquote s r r' hr hr' h
    exact ⟨by rw [sameText, hcut.1, decide_eq_true rfl], hcut.2⟩
  | .list items, r, r', hr, hr', h => by
    rw [render, render] at h
    simp only [List.cons_append, List.append_assoc, List.cons.injEq, true_and,
      List.nil_append] at h
    rw [sameText]
    cases items with
    | nil =>
      rw [renderItems, renderItems] at h
      exact ⟨by rw [sameItems], (List.cons.inj h).2⟩
    | cons v vs =>
      rw [renderItems, renderItems, List.append_assoc, List.append_assoc] at h
      -- the first element ends at the same place in both texts
      have hv := sameText_of_render hquote (delimited_renderMoreItems a vs rfl)
        (delimited_renderMoreItems b vs rfl) h
      have hvs := sameItems_of_render hquote hv.2
      exact ⟨by rw [sameItems, hv.1, hvs.1]; rfl, hvs.2⟩
  | .dict fields, r, r', hr, hr', h => by
    rw [render, render] at h
    simp only [List.cons_append, List.append_assoc, List.cons.injEq, true_and,
      List.nil_append] at h
    rw [sameText]
    cases fields with
    | nil =>
      rw [renderFields, renderFields] at h
      exact ⟨by rw [sameFields], (List.cons.inj h).2⟩
    | cons f fs =>
      obtain ⟨k, v⟩ := f
      rw [renderFields, renderFields] at h
      simp only [List.cons_append, List.append_assoc] at h
      have hk := hquote k _ _ (delimited_cons rfl) (delimited_cons rfl) h
      have hv := sameText_of_render hquote (delimited_renderMoreFields a fs rfl)
        (delimited_renderMoreFields b fs rfl) (List.cons.inj (List.cons.inj hk.2).2).2
      have hfs := sameFields_of_render hquote hv.2
      exact ⟨by rw [sameFields, hk.1, hv.1, hfs.1, decide_eq_true rfl]; rfl, hfs.2⟩

/-- Items that are written alike have leaves that are. -/
theorem sameItems_of_render (hquote : ∀ s, Cut (a.quote s) (b.quote s)) :
    ∀ {vs : List (Json ν)} {r r' : Str},
      renderMoreItems a vs ++ cp ']' :: r = renderMoreItems b vs ++ cp ']' :: r' →
        sameItems a b vs = true ∧ r = r'
  | [], r, r', h => by
    rw [renderMoreItems, renderMoreItems] at h
    exact ⟨by rw [sameItems], (List.cons.inj h).2⟩
  | v :: vs, r, r', h => by
    rw [renderMoreItems, renderMoreItems] at h
    simp only [List.cons_append, List.append_assoc, List.cons.injEq, true_and] at h
    have hv := sameText_of_render hquote (delimited_renderMoreItems a vs rfl)
      (delimited_renderMoreItems b vs rfl) h
    have hvs := sameItems_of_render hquote hv.2
    exact ⟨by rw [sameItems, hv.1, hvs.1]; rfl, hvs.2⟩

/-- Likewise fields. -/
theorem sameFields_of_render (hquote : ∀ s, Cut (a.quote s) (b.quote s)) :
    ∀ {fs : List (Str × Json ν)} {r r' : Str},
      renderMoreFields a fs ++ cp '}' :: r = renderMoreFields b fs ++ cp '}' :: r' →
        sameFields a b fs = true ∧ r = r'
  | [], r, r', h => by
    rw [renderMoreFields, renderMoreFields] at h
    exact ⟨by rw [sameFields], (List.cons.inj h).2⟩
  | (k, v) :: fs, r, r', h => by
    rw [renderMoreFields, renderMoreFields] at h
    simp only [List.cons_append, List.append_assoc, List.cons.injEq, true_and] at h
    have hk := hquote k _ _ (delimited_cons rfl) (delimited_cons rfl) h
    have hv := sameText_of_render hquote (delimited_renderMoreFields a fs rfl)
      (delimited_renderMoreFields b fs rfl) (List.cons.inj (List.cons.inj hk.2).2).2
    have hfs := sameFields_of_render hquote hv.2
    exact ⟨by rw [sameFields, hk.1, hv.1, hfs.1, decide_eq_true rfl]; rfl, hfs.2⟩

end

/-- Two styles write a value alike exactly when they write all its leaves alike. -/
theorem render_eq_render_iff (hquote : ∀ s, Cut (a.quote s) (b.quote s)) {v : Json ν} :
    render a v = render b v ↔ sameText a b v = true := by
  refine ⟨fun h => ?_, render_of_sameText⟩
  have happ : render a v ++ [] = render b v ++ [] := by rw [h]
  exact (sameText_of_render hquote delimited_nil delimited_nil happ).1

end Agreement

/-! ## White space around a value

Containers and plain leaves have none.
-/

/-- The text of a plain leaf is not changed by `strip`. -/
theorem Plain.strip_eq {t : Str} (h : Plain t) : strip t = t :=
  trim_eq_self_of_forall fun c hc => (h.2 c hc).1

/-- Only a string can be blank or carry white space around it. -/
theorem strip_text (st : Style ν) {v : Json ν} (h : ∀ s, v ≠ .str s) :
    strip (text st v) = text st v ∧ text st v ≠ [] := by
  have hbracket {o c : CodePoint} (t : Str) (ho : isSpace o = false) (hc : isSpace c = false) :
      strip (o :: (t ++ [c])) = o :: (t ++ [c]) := by
    refine trim_eq_self (by simpa using ho) ?_
    rw [← List.cons_append, List.getLast?_append]
    simpa using hc
  cases v with
  | null => exact ⟨st.null_plain.strip_eq, st.null_plain.1⟩
  | bool x => exact ⟨(st.bool_plain x).strip_eq, (st.bool_plain x).1⟩
  | int z => exact ⟨(plain_intText z).strip_eq, (plain_intText z).1⟩
  | num x => exact ⟨(st.num_plain x).strip_eq, (st.num_plain x).1⟩
  | str s => exact absurd rfl (h s)
  | list items => exact ⟨hbracket _ (by decide) (by decide), by simp [text, render]⟩
  | dict fields => exact ⟨hbracket _ (by decide) (by decide), by simp [text, render]⟩

/-! ## The characters of a text

A rule for properties of every character.
-/

section Characters

variable {st : Style ν} {P : CodePoint → Prop}

mutual

/-- The characters of a value are those of its leaves and of its punctuation. -/
theorem forall_mem_render (hplain : ∀ t, Plain t → ∀ c ∈ t, P c) (hmark : ∀ c ∈ lit "[]{},: ", P c)
    (hquote : ∀ s, ∀ c ∈ st.quote s, P c) : ∀ (v : Json ν), ∀ c ∈ render st v, P c
  | .null => by
    rw [render]
    exact hplain _ st.null_plain
  | .bool x => by
    rw [render]
    exact hplain _ (st.bool_plain x)
  | .int z => by
    rw [render]
    exact hplain _ (plain_intText z)
  | .num x => by
    rw [render]
    exact hplain _ (st.num_plain x)
  | .str s => by
    rw [render]
    exact hquote s
  | .list items => by
    rw [render, List.forall_mem_cons, List.forall_mem_append, List.forall_mem_singleton]
    refine ⟨hmark _ (by decide), ?_, hmark _ (by decide)⟩
    cases items with
    | nil =>
      rw [renderItems]
      exact List.forall_mem_nil _
    | cons v vs =>
      rw [renderItems, List.forall_mem_append]
      exact ⟨forall_mem_render hplain hmark hquote v, forall_mem_renderMoreItems hplain hmark hquote vs⟩
  | .dict fields => by
    rw [render, List.forall_mem_cons, List.forall_mem_append, List.forall_mem_singleton]
    refine ⟨hmark _ (by decide), ?_, hmark _ (by decide)⟩
    cases fields with
    | nil =>
      rw [renderFields]
      exact List.forall_mem_nil _
    | cons f fs =>
      obtain ⟨k, v⟩ := f
      rw [renderFields, List.forall_mem_append, List.forall_mem_cons, List.forall_mem_cons,
        List.forall_mem_append]
      exact ⟨hquote k, hmark _ (by decide), hmark _ (by decide), forall_mem_render hplain hmark hquote v,
        forall_mem_renderMoreFields hplain hmark hquote fs⟩

/-- The text of items has plain characters, marks and quoted texts only. -/
theorem forall_mem_renderMoreItems (hplain : ∀ t, Plain t → ∀ c ∈ t, P c)
    (hmark : ∀ c ∈ lit "[]{},: ", P c) (hquote : ∀ s, ∀ c ∈ st.quote s, P c) :
    ∀ (vs : List (Json ν)), ∀ c ∈ renderMoreItems st vs, P c
  | [] => by
    rw [renderMoreItems]
    exact List.forall_mem_nil _
  | v :: vs => by
    rw [renderMoreItems, List.forall_mem_cons, List.forall_mem_cons, List.forall_mem_append]
    exact ⟨hmark _ (by decide), hmark _ (by decide), forall_mem_render hplain hmark hquote v,
      forall_mem_renderMoreItems hplain hmark hquote vs⟩

/-- Likewise that of fields. -/
theorem forall_mem_renderMoreFields (hplain : ∀ t, Plain t → ∀ c ∈ t, P c)
    (hmark : ∀ c ∈ lit "[]{},: ", P c) (hquote : ∀ s, ∀ c ∈ st.quote s, P c) :
    ∀ (fs : List (Str × Json ν)), ∀ c ∈ renderMoreFields st fs, P c
  | [] => by
    rw [renderMoreFields]
    exact List.forall_mem_nil _
  | (k, v) :: fs => by
    rw [renderMoreFields, List.forall_mem_cons, List.forall_mem_cons, List.forall_mem_append,
      List.forall_mem_cons, List.forall_mem_cons, List.forall_mem_append]
    exact ⟨hmark _ (by decide), hmark _ (by decide), hquote k, hmark _ (by decide), hmark _ (by decide),
      forall_mem_render hplain hmark hquote v, forall_mem_renderMoreFields hplain hmark hquote fs⟩

end

end Characters

end Json
