import Mathlib.Algebra.Order.Floor.Ring
import Mathlib.Data.Rat.Floor
import Mathlib.Tactic.Linarith
import Ghpulse.Library.Shelf
import Ghpulse.Library.Wrapping
import Ghpulse.Web.ViewModel

/-!
# The legend

`layoutLegend` wraps every label into lines and places the items in rows. The lines are consecutive pieces
of the label's words (`Wrapping.Laid`), and the rectangles of the items are in reading order within the
width (`Shelf.Shelved`), whatever the labels and the widths. A label is a sequence of UTF-16 code units.

Reference: `src/dashboard-charts.jsx`.
-/

open Python Js

namespace Ghpulse.Web

/-! ## Wrapping

Lengths are numbers of UTF-16 code units, as in the source, so a slice may end between the two halves of a
character.
-/

/-- `label.trim().split(/\s+/).filter(Boolean)`. The filter also removes what `splitOnP` leaves between
two white space characters. -/
def words (label : Str) : List Str :=
  ((trim Js.isSpace label).splitOnP Js.isSpace).filter fun word => decide (word ≠ [])

/-- The chunks of a word: the word, or its slices. -/
def chunksOf (maxChars : ℕ) (word : Str) : List Str :=
  if word.length ≤ maxChars then [word] else Wrapping.slices maxChars word

/-- Append a chunk to the last line, or start a new line. -/
def addChunk (maxChars : ℕ) (lines : List Str) (chunk : Str) : List Str :=
  match lines.getLast? with
  | some current =>
    if current ≠ [] ∧ current.length + 1 + chunk.length ≤ maxChars then
      lines.dropLast ++ [current ++ cp ' ' :: chunk]
    else lines ++ [chunk]
  | none => lines ++ [chunk]

/-- `wrapLegendLabel`. -/
def wrapLegendLabel (label : Str) (maxChars : ℕ) : List Str :=
  if words label = [] then [[]]
  else ((words label).flatMap (chunksOf maxChars)).foldl (addChunk maxChars) []

/-! ## Layout

One item after the other, with a cursor that says where the next one goes.
-/

/-- `Math.max(1, Number(width) || 1)`. -/
def availableWidth (width : ℚ) : ℚ := max 1 (if width = 0 then 1 else width)

/-- `Math.max(1, Number(charPx) || 6.4)`. -/
def measuredCharPx (charPx : ℚ) : ℚ := max 1 (if charPx = 0 then 64 / 10 else charPx)

/-- `markerAndGap`. -/
def markerAndGap : ℚ := 24

/-- `gap`. -/
def legendGap : ℚ := 6

/-- `rowHeight`. -/
def legendRowHeight : ℚ := 16

/-- `maxChars`. -/
def maxCharsOf (available measured : ℚ) : ℕ := (max 1 ⌊(available - markerAndGap) / measured⌋).toNat

/-- The width of an item with these lines. -/
def itemWidth (available measured : ℚ) (labelLines : List Str) : ℚ :=
  let longest := (labelLines.map List.length).foldr max 1
  min available (max 30 (markerAndGap + longest * measured))

/-- The height of an item with these lines. -/
def itemHeight (labelLines : List Str) : ℚ := max legendRowHeight (labelLines.length * legendRowHeight)

/-- An item of the legend. -/
structure LegendItem where
  key : Str
  color : Str
  labelLines : List Str
  maxChars : ℕ
  rect : Shelf.Rect ℚ

/-- What `layoutLegend` returns. -/
structure LegendLayout where
  width : ℚ
  height : ℚ
  items : List LegendItem

/-- Where an item of a width goes: at the cursor, or at the start of a new row. -/
def nextPlace (available width : ℚ) (cursor : Shelf.Cursor ℚ) : Shelf.Cursor ℚ :=
  if 0 < cursor.x ∧ available < cursor.x + width then ⟨0, cursor.y + cursor.rowHeight, legendRowHeight⟩
  else cursor

/-- One turn of the loop of `layoutLegend`. -/
def addItem (available measured : ℚ) (state : List LegendItem × Shelf.Cursor ℚ) (item : Series) :
    List LegendItem × Shelf.Cursor ℚ :=
  let maxChars := maxCharsOf available measured
  let labelLines := wrapLegendLabel item.label maxChars
  let width := itemWidth available measured labelLines
  let height := itemHeight labelLines
  let cursor := nextPlace available width state.2
  (state.1 ++ [⟨item.key, item.color, labelLines, maxChars, ⟨cursor.x, cursor.y, width, height⟩⟩],
    ⟨cursor.x + (width + legendGap), cursor.y, max cursor.rowHeight height⟩)

/-- `layoutLegend`. -/
def layoutLegend (series : List Series) (width charPx : ℚ) : LegendLayout :=
  let available := availableWidth width
  let final := series.foldl (addItem available (measuredCharPx charPx)) ([], ⟨0, 0, legendRowHeight⟩)
  { width := available
    height := if final.1 = [] then 0 else final.2.y + final.2.rowHeight
    items := final.1 }

/-! ## The statement

What a legend has to show: the whole text of every label, in pieces that are not too wide, and items that
do not lie on each other.
-/

/-- The item drawn for a series: its lines are consecutive pieces of the words of the label, cut only after
a full line, and they hold every character of it that is not white space. -/
structure Draws (series : Series) (item : LegendItem) : Prop where
  key_eq : item.key = series.key
  color_eq : item.color = series.color
  labelLines_eq : item.labelLines = wrapLegendLabel series.label item.maxChars
  length_le : ∀ line ∈ item.labelLines, line.length ≤ item.maxChars
  laid : Wrapping.Laid (cp ' ') item.maxChars item.labelLines ([cp ' '].intercalate (words series.label))
  text_eq : item.labelLines.flatten.filter (fun c => !Js.isSpace c) =
    series.label.filter fun c => !Js.isSpace c

/-- A layout shows the whole legend within its width. -/
structure LegendFits (series : List Series) (width charPx : ℚ) (layout : LegendLayout) : Prop where
  /-- A width of at least one is the width of the layout. -/
  width_eq : 1 ≤ width → layout.width = width
  /-- There is one item for each series, in their order. -/
  draws : List.Forall₂ Draws series layout.items
  /-- The items are in reading order: left to right in a row, row below row. -/
  ordered : (layout.items.map LegendItem.rect).Pairwise Shelf.Before
  /-- No two items overlap. -/
  disjoint : (layout.items.map LegendItem.rect).Pairwise Shelf.Disjoint
  /-- All items lie within the layout. -/
  within : ∀ item ∈ layout.items, 0 ≤ item.rect.x ∧ item.rect.x + item.rect.width ≤ layout.width ∧
    0 ≤ item.rect.y ∧ item.rect.y + item.rect.height ≤ layout.height
  /-- Where one measured character fits beside the marker, every line does. -/
  measured_fits : markerAndGap + measuredCharPx charPx ≤ width → ∀ item ∈ layout.items,
    ∀ line ∈ item.labelLines, markerAndGap + line.length * measuredCharPx charPx ≤ item.rect.width
  /-- The same for characters of the given width, when the measured ones are wider. -/
  text_fits : 0 ≤ charPx → markerAndGap + charPx ≤ width → ∀ item ∈ layout.items,
    ∀ line ∈ item.labelLines, markerAndGap + line.length * charPx ≤ item.rect.width

/-! ## Words and lines

The text that is laid out is the words of the label with one space between them. Chunks are pieces of
words, and lines are filled with chunks.
-/

/-- Splitting a text drops the separators and nothing else. -/
theorem flatten_splitOnP (p : CodePoint → Bool) (s : Str) :
    (s.splitOnP p).flatten = s.filter fun c => !p c := by
  induction s with
  | nil => rfl
  | cons c s ih =>
    rw [List.splitOnP_cons_eq_if_modifyHead]
    by_cases hc : p c = true
    · rw [if_pos hc, List.flatten_cons, List.nil_append, ih, List.filter_cons_of_neg (by simp [hc])]
    · obtain ⟨first, rest, hsplit⟩ := List.exists_cons_of_ne_nil (List.splitOnP_ne_nil p s)
      rw [hsplit, List.flatten_cons] at ih
      rw [if_neg hc, hsplit, List.modifyHead_cons, List.flatten_cons, List.cons_append, ih,
        List.filter_cons_of_pos (by simp [hc])]

/-- Trimming removes only characters of its class. -/
theorem filter_trim (p : CodePoint → Bool) (s : Str) :
    (trim p s).filter (fun c => !p c) = s.filter fun c => !p c := by
  have hdrop : ∀ t : Str, (t.dropWhile p).filter (fun c => !p c) = t.filter fun c => !p c := by
    intro t
    have hnone : (t.takeWhile p).filter (fun c => !p c) = [] := by
      refine List.filter_eq_nil_iff.mpr fun c hc => ?_
      rw [List.mem_takeWhile_imp hc]
      exact Bool.false_ne_true
    have hsplit := congrArg (List.filter fun c => !p c) (List.takeWhile_append_dropWhile (p := p) (l := t))
    rwa [List.filter_append, hnone, List.nil_append] at hsplit
  rw [trim, List.rdropWhile, List.filter_reverse, hdrop, List.filter_reverse, List.reverse_reverse, hdrop]

/-- The words hold the characters of the label that are not white space. -/
theorem flatten_words (label : Str) : (words label).flatten = label.filter fun c => !Js.isSpace c := by
  rw [words, ← filter_trim, ← flatten_splitOnP]
  simpa only [ne_eq, decide_not] using List.flatten_filter_ne_nil

/-- A word is not empty. -/
theorem ne_nil_of_mem_words {label word : Str} (h : word ∈ words label) : word ≠ [] := by
  simpa using (List.mem_filter.mp h).2

section Lines

variable {maxChars : ℕ} {lines : List Str} {text : Str}

/-- The chunks of a word lay it out. -/
theorem laid_chunksOf (hmax : 0 < maxChars) {word : Str} (hne : word ≠ []) :
    Wrapping.Laid (cp ' ') maxChars (chunksOf maxChars word) word := by
  unfold chunksOf
  split_ifs
  · exact .last word
  · exact Wrapping.laid_slices hmax hne

/-- A chunk is not longer than a line. -/
theorem length_of_mem_chunksOf {word chunk : Str} (h : chunk ∈ chunksOf maxChars word) :
    chunk.length ≤ maxChars := by
  unfold chunksOf at h
  split_ifs at h with hle
  · rwa [List.mem_singleton.mp h]
  · exact Wrapping.length_of_mem_slices h

/-- A chunk joins the last line where both fit, or is a line of its own. -/
theorem addChunk_eq (maxChars : ℕ) (lines : List Str) (chunk : Str) :
    addChunk maxChars lines chunk = lines ++ [chunk] ∨
      ∃ before current, lines = before ++ [current] ∧ current.length + 1 + chunk.length ≤ maxChars ∧
        addChunk maxChars lines chunk = before ++ [current ++ cp ' ' :: chunk] := by
  unfold addChunk
  cases hlast : lines.getLast? with
  | none => exact Or.inl rfl
  | some current =>
    obtain ⟨before, rfl⟩ := List.getLast?_eq_some_iff.mp hlast
    simp only [List.dropLast_concat]
    split_ifs with hfit
    · exact Or.inr ⟨before, current, rfl, hfit.2, rfl⟩
    · exact Or.inl rfl

/-- Filling lines with chunks keeps the layout of the text. -/
theorem laid_foldl_addChunk {chunks : List Str}
    (h : Wrapping.Laid (cp ' ') maxChars (lines ++ chunks) text) :
    Wrapping.Laid (cp ' ') maxChars (chunks.foldl (addChunk maxChars) lines) text := by
  induction chunks generalizing lines with
  | nil => rwa [List.append_nil] at h
  | cons chunk chunks ih =>
    rw [List.foldl_cons]
    refine ih ?_
    rcases addChunk_eq maxChars lines chunk with heq | ⟨before, current, rfl, hfit, heq⟩
    · rw [heq, List.append_assoc]
      exact h
    · rw [heq, List.append_assoc]
      rw [List.append_assoc] at h
      exact h.join hfit

/-- Filling lines keeps them short. -/
theorem length_foldl_addChunk {chunks : List Str} (hlines : ∀ line ∈ lines, line.length ≤ maxChars)
    (hchunks : ∀ chunk ∈ chunks, chunk.length ≤ maxChars) :
    ∀ line ∈ chunks.foldl (addChunk maxChars) lines, line.length ≤ maxChars := by
  induction chunks generalizing lines with
  | nil => exact hlines
  | cons chunk chunks ih =>
    rw [List.forall_mem_cons] at hchunks
    refine ih ?_ hchunks.2
    intro line hline
    rcases addChunk_eq maxChars lines chunk with heq | ⟨before, current, rfl, hfit, heq⟩
    · rw [heq] at hline
      rcases List.mem_append.mp hline with h | h
      · exact hlines line h
      · rw [List.mem_singleton.mp h]
        exact hchunks.1
    · rw [heq] at hline
      rcases List.mem_append.mp hline with h | h
      · exact hlines line (List.mem_append_left _ h)
      · rw [List.mem_singleton.mp h, List.length_append, List.length_cons]
        omega

/-- The lines of a label are pieces of its words. -/
theorem laid_wrapLegendLabel (hmax : 0 < maxChars) (label : Str) :
    Wrapping.Laid (cp ' ') maxChars (wrapLegendLabel label maxChars)
      ([cp ' '].intercalate (words label)) := by
  unfold wrapLegendLabel
  split_ifs with hwords
  · rw [hwords]
    exact .last []
  · refine laid_foldl_addChunk ?_
    rw [List.nil_append]
    exact Wrapping.laid_intercalate hwords fun word hword => laid_chunksOf hmax (ne_nil_of_mem_words hword)

/-- Nor is a line of a label. -/
theorem length_wrapLegendLabel {label line : Str} (h : line ∈ wrapLegendLabel label maxChars) :
    line.length ≤ maxChars := by
  unfold wrapLegendLabel at h
  split_ifs at h with hwords
  · rw [List.mem_singleton.mp h]
    exact Nat.zero_le _
  · refine length_foldl_addChunk (fun line h => absurd h List.not_mem_nil) ?_ line h
    intro chunk hchunk
    obtain ⟨word, -, hchunk⟩ := List.mem_flatMap.mp hchunk
    exact length_of_mem_chunksOf hchunk

/-- The lines of a label hold its characters, white space apart. -/
theorem filter_wrapLegendLabel (hmax : 0 < maxChars) (label : Str) :
    (wrapLegendLabel label maxChars).flatten.filter (fun c => !Js.isSpace c) =
      label.filter fun c => !Js.isSpace c := by
  have hspace : (!Js.isSpace (cp ' ')) = false := by decide
  rw [(laid_wrapLegendLabel hmax label).filter_flatten (p := fun c => !Js.isSpace c) hspace]
  by_cases hwords : words label = []
  · rw [hwords, ← flatten_words label, hwords]
    rfl
  · -- the words themselves are a layout of the text without full lines
    have hlaid : Wrapping.Laid (cp ' ') maxChars ((words label).flatMap fun word => [word])
        ([cp ' '].intercalate (words label)) :=
      Wrapping.laid_intercalate hwords fun word _ => .last word
    rw [← hlaid.filter_flatten (p := fun c => !Js.isSpace c) hspace, List.flatMap_singleton', flatten_words,
      List.filter_filter]
    simp only [Bool.and_self]

end Lines

/-! ## Sizes

The floor in the number of characters is taken after the marker and its gap, so a line of that length fits
as soon as a line of one character does.
-/

section Sizes

variable {available measured : ℚ}

/-- The available width is at least one. -/
theorem one_le_availableWidth (width : ℚ) : 1 ≤ availableWidth width := le_max_left _ _

/-- So is the width of a character. -/
theorem one_le_measuredCharPx (charPx : ℚ) : 1 ≤ measuredCharPx charPx := le_max_left _ _

/-- From one on the available width is the width. -/
theorem availableWidth_eq {width : ℚ} (h : 1 ≤ width) : availableWidth width = width := by
  rw [availableWidth, if_neg (by linarith : width ≠ 0), max_eq_right h]

/-- A line holds a character. -/
theorem maxCharsOf_pos (available measured : ℚ) : 0 < maxCharsOf available measured := by
  rw [maxCharsOf, Int.lt_toNat]
  exact lt_of_lt_of_le Int.zero_lt_one (le_max_left _ _)

/-- No line is longer than the longest one. -/
theorem length_le_longest {labelLines : List Str} {line : Str} (h : line ∈ labelLines) :
    line.length ≤ (labelLines.map List.length).foldr max 1 := by
  induction labelLines with
  | nil => cases h
  | cons first rest ih =>
    rw [List.map_cons, List.foldr_cons]
    rcases List.mem_cons.mp h with rfl | h
    · exact le_max_left _ _
    · exact (ih h).trans (le_max_right _ _)

/-- The longest line counts as one character at least. -/
theorem one_le_longest (labelLines : List Str) : 1 ≤ (labelLines.map List.length).foldr max 1 := by
  induction labelLines with
  | nil => exact le_refl 1
  | cons first rest ih => exact ih.trans (le_max_right _ _)

/-- A number of characters within the limit fits where one character does. -/
theorem markerAndGap_add_le (hone : 1 ≤ measured) (hfit : markerAndGap + measured ≤ available) {n : ℕ}
    (hn : n ≤ maxCharsOf available measured) : markerAndGap + n * measured ≤ available := by
  have hpos : 0 < measured := by linarith
  -- the quotient is at least one, so the limit is the rounded quotient
  have hquot : (1 : ℤ) ≤ ⌊(available - markerAndGap) / measured⌋ := by
    rw [Int.le_floor, le_div_iff₀ hpos]
    push_cast
    linarith
  have hfloor : (n : ℤ) ≤ ⌊(available - markerAndGap) / measured⌋ := by
    rw [maxCharsOf, max_eq_right hquot] at hn
    omega
  rw [Int.le_floor, le_div_iff₀ hpos] at hfloor
  push_cast at hfloor
  linarith

/-- Where one character fits beside the marker, an item is as wide as each of its lines. -/
theorem line_fits (hone : 1 ≤ measured) (hfit : markerAndGap + measured ≤ available)
    {labelLines : List Str} {line : Str} (hline : line ∈ labelLines)
    (hlength : line.length ≤ maxCharsOf available measured) :
    markerAndGap + line.length * measured ≤ itemWidth available measured labelLines := by
  have hlongest : (line.length : ℚ) ≤ ((labelLines.map List.length).foldr max 1 : ℕ) :=
    Nat.cast_le.mpr (length_le_longest hline)
  refine le_min (markerAndGap_add_le hone hfit hlength) (le_max_of_le_right ?_)
  have hmul := mul_le_mul_of_nonneg_right hlongest (by linarith : 0 ≤ measured)
  linarith

/-- An item is not wider than the legend. -/
theorem itemWidth_le (available measured : ℚ) (labelLines : List Str) :
    itemWidth available measured labelLines ≤ available := min_le_left _ _

/-- The width of an item is not negative. -/
theorem itemWidth_nonneg (havail : 0 ≤ available) (measured : ℚ) (labelLines : List Str) :
    0 ≤ itemWidth available measured labelLines :=
  le_min havail (le_max_of_le_left (by norm_num))

/-! ## Rows

The invariant of the loop has two parts: the rectangles so far are on shelves, and the cursor is where the
next one may stand. Both survive a turn, whatever the size of the item is.
-/

/-- The next place is in a row that has room for the item. -/
theorem shelved_nextPlace {width : ℚ} {cursor : Shelf.Cursor ℚ} {rects : List (Shelf.Rect ℚ)}
    (h : Shelf.Shelved available cursor rects) (hwidth : width ≤ available) :
    Shelf.Shelved available (nextPlace available width cursor) rects ∧
      (nextPlace available width cursor).x + width ≤ available := by
  unfold nextPlace
  split_ifs with hwrap
  · exact ⟨h.newRow (by norm_num [legendRowHeight]), by linarith⟩
  · refine ⟨h, ?_⟩
    -- the row has room, or it is still empty
    rcases h.x_nonneg.eq_or_lt with hzero | hpos
    · rw [← hzero]
      linarith
    · exact not_lt.mp fun hlt => hwrap ⟨hpos, hlt⟩

/-- The rectangles of the items so far. -/
def rectsOf (items : List LegendItem) : List (Shelf.Rect ℚ) := items.map LegendItem.rect

/-- Another item keeps the items on their shelves. -/
theorem shelved_addItem {state : List LegendItem × Shelf.Cursor ℚ} (havail : 0 ≤ available)
    (h : Shelf.Shelved available state.2 (rectsOf state.1)) (item : Series) :
    Shelf.Shelved available (addItem available measured state item).2
      (rectsOf (addItem available measured state item).1) := by
  obtain ⟨hplace, hroom⟩ := shelved_nextPlace h (itemWidth_le available measured
    (wrapLegendLabel item.label (maxCharsOf available measured)))
  rw [rectsOf, addItem, List.map_append]
  exact hplace.place (by norm_num [legendGap]) (itemWidth_nonneg havail _ _) hroom

/-- An item as the loop makes it: it shows its series, and its width is that of its lines. -/
def DrawnAt (available measured : ℚ) (series : Series) (item : LegendItem) : Prop :=
  Draws series item ∧ item.maxChars = maxCharsOf available measured ∧
    item.rect.width = itemWidth available measured item.labelLines

/-- Another item is drawn at the cursor. -/
theorem drawnAt_addItem (available measured : ℚ) (state : List LegendItem × Shelf.Cursor ℚ)
    (item : Series) : ∃ drawn, (addItem available measured state item).1 = state.1 ++ [drawn] ∧
      DrawnAt available measured item drawn := by
  have hmax := maxCharsOf_pos available measured
  refine ⟨_, rfl, ⟨rfl, rfl, rfl, fun line => length_wrapLegendLabel, ?_, ?_⟩, rfl, rfl⟩
  · exact laid_wrapLegendLabel hmax item.label
  · exact filter_wrapLegendLabel hmax item.label

/-- Every item of the loop is drawn for some series. -/
theorem exists_drawnAt {series : List Series} {items : List LegendItem}
    (h : List.Forall₂ (DrawnAt available measured) series items) :
    ∀ item ∈ items, ∃ s, DrawnAt available measured s item := by
  induction h with
  | nil => exact fun item hitem => absurd hitem List.not_mem_nil
  | cons hdrawn _ ih => exact List.forall_mem_cons.mpr ⟨⟨_, hdrawn⟩, ih⟩

/-- The whole loop, from any state it can be in. -/
theorem foldl_addItem (havail : 0 ≤ available) (series done : List Series)
    (state : List LegendItem × Shelf.Cursor ℚ)
    (hshelved : Shelf.Shelved available state.2 (rectsOf state.1))
    (hdrawn : List.Forall₂ (DrawnAt available measured) done state.1) :
    Shelf.Shelved available (series.foldl (addItem available measured) state).2
        (rectsOf (series.foldl (addItem available measured) state).1) ∧
      List.Forall₂ (DrawnAt available measured) (done ++ series)
        (series.foldl (addItem available measured) state).1 := by
  induction series generalizing done state with
  | nil =>
    rw [List.append_nil]
    exact ⟨hshelved, hdrawn⟩
  | cons item series ih =>
    obtain ⟨drawn, hitems, hitem⟩ := drawnAt_addItem available measured state item
    have hnext : List.Forall₂ (DrawnAt available measured) (done ++ [item])
        (addItem available measured state item).1 := by
      rw [hitems]
      exact List.rel_append hdrawn (.cons hitem .nil)
    have hrest := ih _ _ (shelved_addItem havail hshelved item) hnext
    rwa [List.append_assoc, List.singleton_append] at hrest

end Sizes

/-- The text of a line fits beside the marker for characters of the given width as well. -/
theorem text_fits {width charPx : ℚ} (hchar : 0 ≤ charPx) (hwidth : markerAndGap + charPx ≤ width)
    {labelLines : List Str} {line : Str} (hline : line ∈ labelLines)
    (hlength : line.length ≤ maxCharsOf (availableWidth width) (measuredCharPx charPx)) :
    markerAndGap + line.length * charPx ≤
      itemWidth (availableWidth width) (measuredCharPx charPx) labelLines := by
  have hmarker : markerAndGap = 24 := rfl
  have havail : availableWidth width = width := availableWidth_eq (by linarith)
  have hle : charPx ≤ measuredCharPx charPx := by
    rw [measuredCharPx]
    split_ifs with hzero
    · rw [hzero]
      exact le_max_of_le_left zero_le_one
    · exact le_max_right _ _
  by_cases hfit : markerAndGap + measuredCharPx charPx ≤ availableWidth width
  · have hmeasured := line_fits (one_le_measuredCharPx charPx) hfit hline hlength
    have hmul : (line.length : ℚ) * charPx ≤ line.length * measuredCharPx charPx :=
      mul_le_mul_of_nonneg_left hle (Nat.cast_nonneg _)
    linarith
  · -- fewer than one measured character fits: every line has at most one character
    have hone : maxCharsOf (availableWidth width) (measuredCharPx charPx) = 1 := by
      have hfloor : ⌊(availableWidth width - markerAndGap) / measuredCharPx charPx⌋ ≤ 1 := by
        rw [← Int.lt_add_one_iff, Int.floor_lt,
          div_lt_iff₀ (zero_lt_one.trans_le (one_le_measuredCharPx charPx))]
        push_cast
        linarith [one_le_measuredCharPx charPx]
      rw [maxCharsOf, max_eq_left hfloor]
      rfl
    have hshort : (line.length : ℚ) * charPx ≤ charPx := by
      rw [hone] at hlength
      have hcast : (line.length : ℚ) ≤ 1 := by exact_mod_cast hlength
      exact mul_le_of_le_one_left hchar hcast
    have hlongest : measuredCharPx charPx ≤
        ((labelLines.map List.length).foldr max 1 : ℕ) * measuredCharPx charPx :=
      le_mul_of_one_le_left (zero_le_one.trans (one_le_measuredCharPx charPx))
        (by exact_mod_cast one_le_longest labelLines)
    exact le_min (by linarith) (le_max_of_le_right (by linarith))

/-- For every list of series, width and character width, the layout shows the whole legend. -/
theorem layoutLegend_fits (series : List Series) (width charPx : ℚ) :
    LegendFits series width charPx (layoutLegend series width charPx) := by
  have havail : 0 ≤ availableWidth width := zero_le_one.trans (one_le_availableWidth width)
  have hstart : Shelf.Shelved (availableWidth width) ⟨0, 0, legendRowHeight⟩ (rectsOf []) :=
    Shelf.shelved_nil (by norm_num [legendRowHeight])
  obtain ⟨hshelved, hdrawn⟩ := foldl_addItem havail series [] ([], ⟨0, 0, legendRowHeight⟩) hstart
    (List.Forall₂.nil : List.Forall₂ (DrawnAt _ (measuredCharPx charPx)) [] [])
  have hitems := exists_drawnAt hdrawn
  refine ⟨availableWidth_eq, hdrawn.imp fun _ _ h => h.1, hshelved.ordered,
    hshelved.ordered.imp fun h => h.disjoint, ?_, ?_, ?_⟩
  · intro item hitem
    have hwithin := hshelved.within item.rect (List.mem_map_of_mem hitem)
    have hheight : (layoutLegend series width charPx).height = _ := if_neg (List.ne_nil_of_mem hitem)
    rw [hheight]
    exact ⟨hwithin.left, hwithin.right, hwithin.top, hwithin.above⟩
  · intro hfit item hitem line hline
    obtain ⟨s, hdraws, hmax, hwidth⟩ := hitems item hitem
    have hmarker : markerAndGap = 24 := rfl
    have havailable : availableWidth width = width :=
      availableWidth_eq (by linarith [one_le_measuredCharPx charPx])
    rw [hwidth]
    exact line_fits (one_le_measuredCharPx charPx) (by rw [havailable]; exact hfit) hline
      (hmax ▸ hdraws.length_le line hline)
  · intro hchar hfit item hitem line hline
    obtain ⟨s, hdraws, hmax, hwidth⟩ := hitems item hitem
    rw [hwidth]
    exact text_fits hchar hfit hline (hmax ▸ hdraws.length_le line hline)

end Ghpulse.Web
