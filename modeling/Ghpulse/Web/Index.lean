import Ghpulse.Library.AsciiJson
import Ghpulse.Library.Replace

/-!
# The served page

The page `root_index` serves: `public/index.html` with the runtime configuration in place of the two
default scripts, and with content hashes added to the asset references. The configured URL is written as
a JSON string without `<`, `>` and `&`, and the replacements made after it leave it alone, because every
attribute they search for has an unescaped quote followed by a slash.

Reference: `backend/app.py` and `public/index.html`.
-/

namespace Ghpulse.Page

open Python AsciiJson

/-! ## The configuration script

Three characters of the JSON text are escaped once more, so that no markup can start or end in the script.
-/

/-- `_script_json`: a JSON text without `<`, `>` and `&`. -/
def scriptJson (value : Atom) : Str :=
  replace [cp '&'] (lit "\\u0026")
    (replace [cp '>'] (lit "\\u003e") (replace [cp '<'] (lit "\\u003c") (dumps value)))

/-- The part of the script before the URL. -/
def injectionStart : Str := lit "<script>window.BACKEND_URL = "

/-- The part of the script between the URL and the flag. -/
def injectionMiddle : Str := lit "; window.IS_GUEST = "

/-- The part of the script after the flag. -/
def injectionEnd : Str := lit ";</script>"

/-- The script that configures the page. -/
def injection (backendUrl : Str) (isGuest : Bool) : Str :=
  injectionStart ++ scriptJson (.str backendUrl) ++ injectionMiddle ++ scriptJson (.bool isGuest) ++
    injectionEnd

/-! ## The page

The text of the file is part of the model, since the replacements search in it.
-/

/-- The lines of `public/index.html`. -/
def indexLines : List Str := [
  lit "<!DOCTYPE html>",
  lit "<html lang=\"en\">",
  lit "<head>",
  lit "<meta charset=\"UTF-8\" />",
  lit "<meta name=\"viewport\" content=\"width=device-width, initial-scale=1\" />",
  lit "<meta name=\"description\" content=\"Self-hosted GitHub activity dashboard for authored " ++
    lit "public issues and pull requests.\" />",
  lit "<title>ghpulse · GitHub Activity Dashboard</title>",
  lit "<link rel=\"preconnect\" href=\"https://fonts.googleapis.com\">",
  lit "<link rel=\"preconnect\" href=\"https://fonts.gstatic.com\" crossorigin>",
  lit "<link href=\"https://fonts.googleapis.com/css2?family=Inter:wght@400;500;600;700" ++
    lit "&family=JetBrains+Mono:wght@400;500;600;700&display=swap\" rel=\"stylesheet\">",
  lit "<link rel=\"stylesheet\" href=\"/app.css\" />",
  lit "</head>",
  lit "<body>",
  lit "<div id=\"root\"></div>",
  lit "",
  lit "<script src=\"https://unpkg.com/react@18.3.1/umd/react.production.min.js\" " ++
    lit "integrity=\"sha384-DGyLxAyjq0f9SPpVevD6IgztCFlnMF6oW/XQGmfe+IsZ8TqEiDrcHkMLKI6fiB/Z\" " ++
    lit "crossorigin=\"anonymous\"></script>",
  lit "<script src=\"https://unpkg.com/react-dom@18.3.1/umd/react-dom.production.min.js\" " ++
    lit "integrity=\"sha384-gTGxhz21lVGYNMcdJOyq01Edg0jhn/c22nsx0kyqP0TxaV5WVdsSH1fSDUf5YJj1\" " ++
    lit "crossorigin=\"anonymous\"></script>",
  lit "<script src=\"https://unpkg.com/@babel/standalone@7.29.0/babel.min.js\" " ++
    lit "integrity=\"sha384-m08KidiNqLdpJqLq95G/LEi8Qvjl/xUYll3QILypMoQ65QorJ9Lvtp2RXYGBFj1y\" " ++
    lit "crossorigin=\"anonymous\"></script>",
  lit "",
  lit "<!-- The backend serves this file with BACKEND_URL and IS_GUEST injected. -->",
  lit "<script>window.BACKEND_URL = window.BACKEND_URL || '';</script>",
  lit "<script>window.IS_GUEST = window.IS_GUEST || false;</script>",
  lit "",
  lit "<!-- Chart helpers must be evaluated before the application shell. Both files",
  lit "     are JSX and are compiled in-browser by the Babel script above. -->",
  lit "<script type=\"text/babel\" src=\"/src/dashboard-charts.jsx\"></script>",
  lit "<script type=\"text/babel\" src=\"/src/app.jsx\"></script>",
  lit "<script type=\"text/babel\">",
  lit "  const root = ReactDOM.createRoot(document.getElementById('root'));",
  lit "  root.render(<window.App />);",
  lit "</script>",
  lit "</body>",
  lit "</html>"]

/-- Lines as a text. -/
def linesText (lines : List Str) : Str := lines.flatMap fun line => line ++ [cp '\n']

/-- `public/index.html`. -/
def indexHtml : Str := linesText indexLines

/-- The default scripts that the configuration takes the place of. -/
def placeholder : Str :=
  lit "<script>window.BACKEND_URL = window.BACKEND_URL || '';</script>\n" ++
    lit "<script>window.IS_GUEST = window.IS_GUEST || false;</script>"

/-- `_asset_hash`: the 64 lower-case hexadecimal digits of a SHA-256 digest. -/
structure AssetHash where
  /-- The digits. -/
  text : Str
  length_eq : text.length = 64
  hex : ∀ c ∈ text, ∃ d < 16, c = hexDigit d

/-- Add the content hash of the stylesheet to its reference. -/
def bustStyle (hash : AssetHash) (html : Str) : Str :=
  replace (lit "href=\"/app.css\"") (lit "href=\"/app.css?v=" ++ hash.text ++ lit "\"") html

/-- Add the content hash of one source file to the references to it. -/
def bustScript (html : Str) (file : Str × AssetHash) : Str :=
  replace (lit "src=\"/src/" ++ file.1 ++ lit "\"")
    (lit "src=\"/src/" ++ file.1 ++ lit "?v=" ++ file.2.text ++ lit "\"") html

/-- The configured URL: the variable `BACKEND_URL`, if it is set. -/
def backendUrl (environ : Option Str) : Str := environ.getD (lit "/")

/-- The guest flag: what the middleware left on the request, if anything. -/
def isGuest (guest : Option Bool) : Bool := guest.getD false

/-- `root_index`: the text of the response. `environ` is the variable `BACKEND_URL`, `guest` the flag of
the request, and `files` are the names and hashes of the files under `src/`, in the order of the walk. -/
def rootIndex (environ : Option Str) (guest : Option Bool) (style : AssetHash)
    (files : List (Str × AssetHash)) : Str :=
  let html := replace placeholder (injection (backendUrl environ) (isGuest guest)) indexHtml
  files.foldl bustScript (bustStyle style html)

/-! ## What the serialised values contain

Character by character: what a character of the URL can put into the script, and that it is read back.
-/

/-- One character of the URL as it stands in the script. -/
def scriptEscape (c : CodePoint) : Str :=
  if c = cp '<' ∨ c = cp '>' ∨ c = cp '&' then unitEscape c.val else asciiEscape c

/-- The characters that markup is made of. -/
def markup : Str := [cp '<', cp '>', cp '&']

/-- The characters of the escapes, apart from a quote: backslashes, digits and lower-case letters. -/
def isEscape (c : CodePoint) : Bool :=
  decide (c = cp '\\' ∨ (0x30 ≤ c.val ∧ c.val ≤ 0x39) ∨ (0x61 ≤ c.val ∧ c.val ≤ 0x7a))

/-- The code of a hexadecimal digit. -/
theorem val_hexDigit {d : ℕ} (hd : d < 16) :
    (hexDigit d).val = if d < 10 then 0x30 + d else 0x57 + d :=
  Nat.mod_eq_of_lt (by split_ifs <;> omega)

/-- A hexadecimal digit may stand in an escape. -/
theorem isEscape_hexDigit {d : ℕ} (hd : d < 16) : isEscape (hexDigit d) = true := by
  rw [isEscape, decide_eq_true_eq, val_hexDigit hd]
  split_ifs <;> omega

/-- A `\u` escape has no other characters. -/
theorem isEscape_of_mem_unitEscape {u : ℕ} {x : CodePoint} (hx : x ∈ unitEscape u) :
    isEscape x = true := by
  rcases List.mem_cons.mp hx with rfl | hx
  · rfl
  rcases List.mem_cons.mp hx with rfl | hx
  · rfl
  · obtain ⟨d, hd, rfl⟩ := mem_hexText hx
    exact isEscape_hexDigit hd

/-- Nor has a short escape. -/
theorem isEscape_of_mem_short {e x : CodePoint} (he : isEscape e = true) (hx : x ∈ [cp '\\', e]) :
    isEscape x = true := by
  rcases List.mem_pair.mp hx with rfl | rfl
  · rfl
  · exact he

/-- A character is written with itself and the characters of escapes. -/
theorem mem_asciiEscape {c x : CodePoint} (hx : x ∈ asciiEscape c) : x = c ∨ isEscape x = true := by
  unfold asciiEscape at hx
  split at hx
  case isTrue hquote =>
    rcases List.mem_pair.mp hx with rfl | rfl
    · exact Or.inr rfl
    · exact Or.inl hquote.symm
  -- the backslash and the five control characters with a letter of their own
  iterate 6
    split at hx
    · exact Or.inr (isEscape_of_mem_short rfl hx)
  split at hx
  · exact Or.inl (List.mem_singleton.mp hx)
  split at hx
  · exact Or.inr (isEscape_of_mem_unitEscape hx)
  · rcases List.mem_append.mp hx with hx | hx
    · exact Or.inr (isEscape_of_mem_unitEscape hx)
    · exact Or.inr (isEscape_of_mem_unitEscape hx)

/-- A replacement of a character that no escape uses leaves the text of any other character alone. -/
theorem flatMap_asciiEscape {c m : CodePoint} (hm : isEscape m = false) (hc : c ≠ m) (new : Str) :
    ((asciiEscape c).flatMap fun x => if x = m then new else [x]) = asciiEscape c := by
  have hnot : ∀ x ∈ asciiEscape c, x ≠ m := by
    rintro x hx rfl
    rcases mem_asciiEscape hx with rfl | h
    · exact hc rfl
    · rw [hm] at h
      exact Bool.false_ne_true h
  rw [List.flatMap_congr fun x hx => if_neg (hnot x hx)]
  exact List.flatMap_singleton' _

/-- The replacements of markup characters, on the text of one character. -/
theorem scriptEscape_eq (c : CodePoint) :
    (((asciiEscape c).flatMap fun x => if x = cp '<' then lit "\\u003c" else [x]).flatMap
      fun x => if x = cp '>' then lit "\\u003e" else [x]).flatMap
        (fun x => if x = cp '&' then lit "\\u0026" else [x]) = scriptEscape c := by
  unfold scriptEscape
  repeat rw [lit_eq_map rfl]
  split_ifs with hmarkup
  · rcases hmarkup with rfl | rfl | rfl
    · rfl
    · rfl
    · rfl
  · rw [not_or, not_or] at hmarkup
    rw [flatMap_asciiEscape rfl hmarkup.1, flatMap_asciiEscape rfl hmarkup.2.1,
      flatMap_asciiEscape rfl hmarkup.2.2]

/-- The URL in the script: a quoted text, character by character. -/
theorem scriptJson_str (s : Str) :
    scriptJson (.str s) = cp '"' :: (s.flatMap scriptEscape ++ [cp '"']) := by
  have hflat : s.flatMap scriptEscape = (((s.flatMap asciiEscape).flatMap
      fun x => if x = cp '<' then lit "\\u003c" else [x]).flatMap
        fun x => if x = cp '>' then lit "\\u003e" else [x]).flatMap
          fun x => if x = cp '&' then lit "\\u0026" else [x] := by
    rw [List.flatMap_assoc, List.flatMap_assoc, List.flatMap_assoc]
    exact List.flatMap_congr fun c _ => by rw [← scriptEscape_eq, List.flatMap_assoc, List.flatMap_assoc]
  rw [scriptJson, replace_singleton, replace_singleton, replace_singleton, dumps, hflat]
  simp only [List.flatMap_cons, List.flatMap_append, List.flatMap_nil, List.append_nil]
  rfl

/-- A truth value needs no escape. -/
theorem scriptJson_bool (b : Bool) : scriptJson (.bool b) = dumps (.bool b) := by
  unfold scriptJson dumps
  repeat rw [lit_eq_map rfl]
  cases b
  · rfl
  · rfl

/-- No character of an escape is markup. -/
theorem isEscape_of_mem_markup {c : CodePoint} (hc : c ∈ markup) : isEscape c = false := by
  have hthree : c = cp '<' ∨ c = cp '>' ∨ c = cp '&' := by simpa [markup] using hc
  rcases hthree with rfl | rfl | rfl
  · rfl
  · rfl
  · rfl

/-- What the text of a character consists of, in the script. -/
theorem mem_scriptEscape {c x : CodePoint} (hx : x ∈ scriptEscape c) :
    x = c ∧ x ∉ markup ∨ isEscape x = true := by
  unfold scriptEscape at hx
  split_ifs at hx with hmarkup
  · exact Or.inr (isEscape_of_mem_unitEscape hx)
  · rcases mem_asciiEscape hx with rfl | h
    · exact Or.inl ⟨rfl, by simpa [markup] using hmarkup⟩
    · exact Or.inr h

/-- A serialised value holds none of the characters that markup is made of. -/
theorem markup_notMem_scriptJson (value : Atom) {c : CodePoint} (hc : c ∈ markup) :
    c ∉ scriptJson value := by
  have hescape := isEscape_of_mem_markup hc
  have hquote : cp '"' ∉ markup := by decide
  intro hmem
  cases value with
  | str s =>
    rw [scriptJson_str, List.mem_cons, List.mem_append, List.mem_singleton] at hmem
    rcases hmem with rfl | hmem | rfl
    · exact hquote hc
    · obtain ⟨d, -, hd⟩ := List.mem_flatMap.mp hmem
      rcases mem_scriptEscape hd with ⟨-, h⟩ | h
      · exact h hc
      · rw [hescape] at h
        exact Bool.false_ne_true h
    · exact hquote hc
  | bool b =>
    have hletters : (dumps (.bool b)).all isEscape = true := by
      unfold dumps
      repeat rw [lit_eq_map rfl]
      cases b
      · rfl
      · rfl
    rw [scriptJson_bool] at hmem
    rw [List.all_eq_true.mp hletters c hmem] at hescape
    exact Bool.false_ne_true hescape.symm

/-- An escaped character is read back. -/
theorem reads_scriptEscape (c : CodePoint) : Reads (scriptEscape c) c := by
  unfold scriptEscape
  split_ifs with hmarkup
  · refine reads_unitEscape ?_
    rcases hmarkup with rfl | rfl | rfl
    · decide
    · decide
    · decide
  · exact reads_asciiEscape c

/-- The URL in the script is the JSON text of the URL. -/
theorem loads_scriptJson_str {s : Str} (hs : Unpaired s) :
    loads (scriptJson (.str s)) = some (.str s) := by
  rw [scriptJson_str]
  exact loads_quoted reads_scriptEscape hs

/-- A truth value is read back. -/
theorem loads_scriptJson_bool (b : Bool) : loads (scriptJson (.bool b)) = some (.bool b) := by
  rw [scriptJson_bool]
  exact loads_dumps_bool b

/-! ## The later replacements

A replacement searches for an attribute, an equals sign and a quotation mark that is followed by a slash.
Inside the URL every quotation mark follows a backslash, so none of the searches can start there.
-/

/-- A quote in the text of one character comes right after the backslash the text starts with. -/
theorem scriptEscape_quote {c : CodePoint} {u w : Str} (h : scriptEscape c = u ++ cp '"' :: w) :
    u = [cp '\\'] := by
  have hmem : cp '"' ∈ scriptEscape c := by rw [h]; simp
  rcases mem_scriptEscape hmem with ⟨rfl, -⟩ | hescape
  · change [cp '\\', cp '"'] = _ at h
    match u with
    | [] => exact absurd (List.cons.inj h).1 (by decide)
    | [x] => rw [(List.cons.inj h).1]
    | _ :: _ :: _ => simp at h
  · exact absurd hescape (by decide)

/-- Every quote inside the serialised URL comes right after a backslash. -/
theorem flatMap_scriptEscape_quote {s u w : Str} (h : s.flatMap scriptEscape = u ++ cp '"' :: w) :
    ∃ u', u = u' ++ [cp '\\'] := by
  induction s generalizing u with
  | nil => simp at h
  | cons c s ih =>
    rw [List.flatMap_cons] at h
    rcases List.append_eq_append_iff.mp h with ⟨t, rfl, ht⟩ | ⟨t, hc, ht⟩
    · obtain ⟨u', rfl⟩ := ih ht
      exact ⟨scriptEscape c ++ u', by rw [List.append_assoc]⟩
    · cases t with
      | nil =>
        obtain ⟨u', hu'⟩ := ih (u := []) ht.symm
        simp at hu'
      | cons x t =>
        obtain ⟨rfl, -⟩ := List.cons.inj ht
        exact ⟨[], scriptEscape_quote hc⟩

/-- No attribute with a value that starts with a slash starts inside the serialised URL, when its closing
quote is followed by a semicolon. -/
theorem noStart_url {name value rest : Str} (hname : cp '"' ∉ name) (s : Str) :
    NoStart (name ++ cp '=' :: cp '"' :: cp '/' :: value) (s.flatMap scriptEscape)
      (cp '"' :: cp ';' :: rest) := by
  intro v hv hne hp
  obtain ⟨z, hz⟩ := hp
  have hkey : cp '"' ∉ name ++ [cp '='] := by
    rw [List.mem_append, List.mem_singleton]
    exact fun h => h.elim hname (by decide)
  have hz' : (name ++ [cp '=']) ++ cp '"' :: (cp '/' :: value ++ z) = v ++ cp '"' :: cp ';' :: rest := by
    simpa using hz
  by_cases hquote : cp '"' ∈ v
  · -- the first quote of `v` is one of the URL, and it comes after a backslash
    obtain ⟨a, b, rfl, ha⟩ := List.eq_append_cons_of_mem hquote
    rw [List.append_assoc a, List.cons_append] at hz'
    obtain ⟨rfl, -⟩ := append_cons_inj hkey ha hz'
    obtain ⟨t, ht⟩ := hv
    obtain ⟨u', hu'⟩ := flatMap_scriptEscape_quote (u := t ++ (name ++ [cp '='])) (w := b)
      (by rw [← ht]; simp only [List.append_assoc])
    rw [← List.append_assoc] at hu'
    exact absurd (List.append_inj_right' hu' rfl) (by decide)
  · obtain ⟨-, h⟩ := append_cons_inj hkey hquote hz'
    exact absurd (List.cons.inj h).1 (by decide)

/-- The start of a reference to a local file in an attribute. -/
def reference (name : Str) : Str := name ++ [cp '=', cp '"', cp '/']

/-- The attributes of the later replacements. -/
def attributes : List Str := [lit "href", lit "src"]

/-- No such reference starts in the parts of the script around the URL. -/
theorem clear_injection : (attributes.all fun name => [true, false].all fun flag =>
    clear (reference name) (injectionStart ++ [cp '"']) && clear (reference name)
      (cp '"' :: (injectionMiddle ++ (scriptJson (.bool flag) ++ injectionEnd)))) = true := by
  unfold attributes injectionStart injectionMiddle injectionEnd
  repeat rw [lit_eq_map rfl]
  decide +kernel

/-- The attribute names have no quotation mark. -/
theorem quote_notMem_attributes {name : Str} (hname : name ∈ attributes) : cp '"' ∉ name := by
  have hall : ∀ name ∈ attributes, cp '"' ∉ name := by
    unfold attributes
    repeat rw [lit_eq_map rfl]
    decide
  exact hall name hname

/-- No such reference starts inside the script, whatever follows it. -/
theorem noStart_injection {name : Str} (hname : name ∈ attributes) (url : Str) (flag : Bool) (rest : Str) :
    NoStart (reference name) (injection url flag) rest := by
  have hflag := List.all_eq_true.mp (List.all_eq_true.mp clear_injection name hname) flag
    (by cases flag <;> simp)
  rw [Bool.and_eq_true] at hflag
  have hsplit : injection url flag = (injectionStart ++ [cp '"']) ++ (url.flatMap scriptEscape ++
      cp '"' :: (injectionMiddle ++ (scriptJson (.bool flag) ++ injectionEnd))) := by
    rw [injection, scriptJson_str]
    simp only [List.append_assoc, List.cons_append, List.nil_append]
  have hmiddle : ∃ r, injectionMiddle = cp ';' :: r := by
    unfold injectionMiddle
    rw [lit_eq_map rfl]
    exact ⟨_, rfl⟩
  obtain ⟨r, hr⟩ := hmiddle
  rw [hsplit]
  refine NoStart.append (noStart_of_clear hflag.1) (NoStart.append ?_ (noStart_of_clear hflag.2))
  rw [hr]
  exact noStart_url (quote_notMem_attributes hname) url

/-! ## The page around the script

The text of the page is known, so that each search can be evaluated on it. What is not known is the script
between its two parts, and there no search starts.
-/

/-- The page before the script, up to the reference to the stylesheet. -/
def styleStart : Str := linesText (indexLines.take 10) ++ lit "<link rel=\"stylesheet\" "

/-- The page before the script, after the reference to the stylesheet. -/
def styleEnd : Str := lit " />\n" ++ linesText ((indexLines.take 20).drop 11)

/-- The page before the script. -/
def indexHead : Str := styleStart ++ lit "href=\"/app.css\"" ++ styleEnd

/-- The page after the script. -/
def indexTail : Str := cp '\n' :: linesText (indexLines.drop 22)

/-- The text of lines is that of their parts. -/
theorem linesText_append (a b : List Str) : linesText (a ++ b) = linesText a ++ linesText b :=
  List.flatMap_append

/-- The page is the part before the placeholder, the placeholder and the part after it. -/
theorem indexHtml_eq : indexHtml = indexHead ++ (placeholder ++ indexTail) := by
  have hlines : indexLines = indexLines.take 10 ++ (indexLines.drop 10).take 1 ++
      (indexLines.take 20).drop 11 ++ (indexLines.drop 20).take 2 ++ indexLines.drop 22 := rfl
  have hstyle : linesText ((indexLines.drop 10).take 1) =
      lit "<link rel=\"stylesheet\" " ++ lit "href=\"/app.css\"" ++ lit " />\n" := by
    unfold indexLines
    repeat rw [lit_eq_map rfl]
    rfl
  have hscripts : linesText ((indexLines.drop 20).take 2) = placeholder ++ [cp '\n'] := by
    unfold indexLines placeholder
    repeat rw [lit_eq_map rfl]
    rfl
  rw [indexHtml, hlines]
  simp only [linesText_append]
  rw [hstyle, hscripts]
  simp only [indexHead, indexTail, styleStart, styleEnd, List.append_assoc, List.cons_append,
    List.nil_append]

/-- What the replaced texts start with. -/
def starts : List Str := lit "<script>" :: attributes.map reference

/-- The replaced texts do not start in the two parts of the page before the placeholder. -/
theorem clear_head : (starts.all fun p => clear p styleStart && clear p styleEnd) = true := by
  unfold starts attributes styleStart styleEnd indexLines
  repeat rw [lit_eq_map rfl]
  decide +kernel

/-- The placeholder is not in the part of the page after it. -/
theorem clear_tail : clear (lit "<script>") indexTail = true := by
  unfold indexTail indexLines
  repeat rw [lit_eq_map rfl]
  decide +kernel

/-- No reference starts inside of the style tag's start. -/
theorem noStart_styleStart {p : Str} (hp : p ∈ starts) (rest : Str) : NoStart p styleStart rest := by
  have h := List.all_eq_true.mp clear_head p hp
  rw [Bool.and_eq_true] at h
  exact noStart_of_clear h.1

/-- Nor inside of its end. -/
theorem noStart_styleEnd {p : Str} (hp : p ∈ starts) (rest : Str) : NoStart p styleEnd rest := by
  have h := List.all_eq_true.mp clear_head p hp
  rw [Bool.and_eq_true] at h
  exact noStart_of_clear h.2

/-- Each of the two attributes starts a reference. -/
theorem reference_mem_starts {name : Str} (hname : name ∈ attributes) : reference name ∈ starts :=
  List.mem_cons_of_mem _ (List.mem_map_of_mem hname)

/-- `href` is one of them. -/
theorem href_mem : lit "href" ∈ attributes := List.mem_cons_self

/-- So is `src`. -/
theorem src_mem : lit "src" ∈ attributes := List.mem_cons_of_mem _ List.mem_cons_self

/-- The placeholder is the only part of the page that the first replacement changes. -/
theorem replace_placeholder (script : Str) :
    replace placeholder script indexHtml = indexHead ++ (script ++ indexTail) := by
  have hp : ∃ r, placeholder = lit "<script>" ++ r := by
    unfold placeholder
    repeat rw [lit_eq_map rfl]
    exact ⟨_, rfl⟩
  have hne : placeholder ≠ [] := by
    unfold placeholder
    rw [lit_eq_map rfl]
    exact List.cons_ne_nil _ _
  have hcss : clear (lit "<script>") (lit "href=\"/app.css\"") = true := by
    repeat rw [lit_eq_map rfl]
    decide
  obtain ⟨r, hr⟩ := hp
  have hprefix : lit "<script>" <+: placeholder := ⟨r, hr.symm⟩
  have hhead : NoStart placeholder indexHead (placeholder ++ indexTail) := by
    refine NoStart.mono hprefix (NoStart.append (NoStart.append ?_ (noStart_of_clear hcss)) ?_)
    · exact noStart_styleStart List.mem_cons_self _
    · exact noStart_styleEnd List.mem_cons_self _
  have htail : NoStart placeholder indexTail [] := (noStart_of_clear clear_tail).mono hprefix
  rw [indexHtml_eq, replace_append hhead, replace_occurrence hne, replace_of_noStart htail]

/-- The reference to the stylesheet is one to a local file. -/
theorem href_isPrefix : reference (lit "href") <+: lit "href=\"/app.css\"" := by
  unfold reference
  repeat rw [lit_eq_map rfl]
  exact ⟨_, rfl⟩

/-- The reference to a source file is one to a local file. -/
theorem src_isPrefix (rest : Str) : reference (lit "src") <+: lit "src=\"/src/" ++ rest := by
  have hsrc : reference (lit "src") <+: lit "src=\"/src/" := by
    unfold reference
    repeat rw [lit_eq_map rfl]
    exact ⟨_, rfl⟩
  exact hsrc.trans (List.prefix_append _ _)

/-- The reference to the stylesheet is in the part before the script, once. -/
theorem bustStyle_head (hash : AssetHash) (rest : Str) :
    bustStyle hash (indexHead ++ rest) = styleStart ++
      (lit "href=\"/app.css?v=" ++ hash.text ++ lit "\"") ++ styleEnd ++ bustStyle hash rest := by
  have hmem := reference_mem_starts href_mem
  have hne : lit "href=\"/app.css\"" ≠ [] := by
    rw [lit_eq_map rfl]
    exact List.cons_ne_nil _ _
  exact replace_once hne (fun rest => (noStart_styleStart hmem rest).mono href_isPrefix)
    fun rest => (noStart_styleEnd hmem rest).mono href_isPrefix

/-- The part before the script, after the stylesheet replacement. -/
theorem bustStyle_indexHead (hash : AssetHash) : bustStyle hash indexHead =
    styleStart ++ (lit "href=\"/app.css?v=" ++ hash.text ++ lit "\"") ++ styleEnd := by
  have hnil := bustStyle_head hash []
  rwa [List.append_nil, show bustStyle hash [] = [] from rfl, List.append_nil] at hnil

/-- The stylesheet replacement acts on the parts around the script. -/
theorem bustStyle_page (hash : AssetHash) (url : Str) (flag : Bool) :
    bustStyle hash (indexHead ++ (injection url flag ++ indexTail)) =
      bustStyle hash indexHead ++ (injection url flag ++ bustStyle hash indexTail) := by
  rw [bustStyle_head, bustStyle_indexHead]
  exact congrArg (HAppend.hAppend _)
    (replace_append ((noStart_injection href_mem url flag _).mono href_isPrefix))

/-- No reference to a source file starts in the part before the script. -/
theorem noStart_head (hash : AssetHash) (rest : Str) :
    NoStart (reference (lit "src")) (bustStyle hash indexHead) rest := by
  have hhash : cp 's' ∉ hash.text := by
    intro hs
    obtain ⟨d, hd, h⟩ := hash.hex _ hs
    have hval := (congrArg Fin.val h).trans (val_hexDigit hd)
    have hs' : (cp 's').val = 0x73 := rfl
    split_ifs at hval <;> omega
  have hmem := reference_mem_starts src_mem
  have hopen : clear (reference (lit "src")) (lit "href=\"/app.css?v=") = true := by
    unfold reference
    repeat rw [lit_eq_map rfl]
    decide
  have hclose : clear (reference (lit "src")) (lit "\"") = true := by
    unfold reference
    repeat rw [lit_eq_map rfl]
    decide
  have hstart : ∃ r, reference (lit "src") = cp 's' :: r := by
    unfold reference
    rw [lit_eq_map rfl]
    exact ⟨_, rfl⟩
  obtain ⟨r, hr⟩ := hstart
  rw [bustStyle_indexHead]
  refine NoStart.append (NoStart.append (noStart_styleStart hmem _) ?_) (noStart_styleEnd hmem rest)
  refine NoStart.append (NoStart.append (noStart_of_clear hopen) ?_) (noStart_of_clear hclose)
  rw [hr]
  exact noStart_of_notMem hhash

/-- The replacement of one source file acts on the part after the script. -/
theorem bustScript_append {before : Str} (h : ∀ rest, NoStart (reference (lit "src")) before rest)
    (rest : Str) (file : Str × AssetHash) :
    bustScript (before ++ rest) file = before ++ bustScript rest file := by
  refine replace_append ((h rest).mono ?_)
  rw [List.append_assoc]
  exact src_isPrefix _

/-- The replacements of all source files act on the part after the script. -/
theorem foldl_bustScript {before : Str} (h : ∀ rest, NoStart (reference (lit "src")) before rest)
    (files : List (Str × AssetHash)) (rest : Str) :
    files.foldl bustScript (before ++ rest) = before ++ files.foldl bustScript rest := by
  induction files generalizing rest with
  | nil => rfl
  | cons file files ih => rw [List.foldl_cons, bustScript_append h, ih, List.foldl_cons]

/-- The page: the script stands as it was injected, and the replacements change what is around it. -/
theorem rootIndex_eq (environ : Option Str) (guest : Option Bool) (style : AssetHash)
    (files : List (Str × AssetHash)) :
    rootIndex environ guest style files =
      bustStyle style indexHead ++ injection (backendUrl environ) (isGuest guest) ++
        files.foldl bustScript (bustStyle style indexTail) := by
  have hbefore : ∀ rest, NoStart (reference (lit "src"))
      (bustStyle style indexHead ++ injection (backendUrl environ) (isGuest guest)) rest :=
    fun rest => NoStart.append (noStart_head style _) (noStart_injection src_mem _ _ rest)
  rw [rootIndex, replace_placeholder, bustStyle_page, ← List.append_assoc]
  exact foldl_bustScript hbefore files _

/-- The script is one element: nothing between its tags can close it. -/
theorem injection_closed (url : Str) (flag : Bool) :
    ∃ body, injection url flag = lit "<script>" ++ body ++ lit "</script>" ∧ cp '<' ∉ body := by
  have hstart : injectionStart = lit "<script>" ++ lit "window.BACKEND_URL = " := by
    unfold injectionStart
    repeat rw [lit_eq_map rfl]
    rfl
  have hend : injectionEnd = lit ";" ++ lit "</script>" := by
    unfold injectionEnd
    repeat rw [lit_eq_map rfl]
    rfl
  have hplain : cp '<' ∉ lit "window.BACKEND_URL = " ∧ cp '<' ∉ injectionMiddle ∧ cp '<' ∉ lit ";" := by
    unfold injectionMiddle
    repeat rw [lit_eq_map rfl]
    decide
  refine ⟨lit "window.BACKEND_URL = " ++ scriptJson (.str url) ++ injectionMiddle ++
    scriptJson (.bool flag) ++ lit ";", ?_, ?_⟩
  · rw [injection, hstart, hend]
    simp only [List.append_assoc]
  · have hmarkup : cp '<' ∈ markup := List.mem_cons_self
    simp only [List.mem_append, not_or]
    exact ⟨⟨⟨⟨hplain.1, markup_notMem_scriptJson _ hmarkup⟩, hplain.2.1⟩,
      markup_notMem_scriptJson _ hmarkup⟩, hplain.2.2⟩

/-- For every configured URL and guest flag: the served page holds the script exactly as it was built,
between parts that depend on neither; the serialised values hold no character of markup, so the script is
one element; and they are the JSON texts of the URL and of the flag. -/
theorem rootIndex_injects (environ : Option Str) (guest : Option Bool) (style : AssetHash)
    (files : List (Str × AssetHash)) :
    rootIndex environ guest style files =
      bustStyle style indexHead ++ injection (backendUrl environ) (isGuest guest) ++
        files.foldl bustScript (bustStyle style indexTail) ∧
    (∀ c ∈ markup, c ∉ scriptJson (.str (backendUrl environ)) ∧
      c ∉ scriptJson (.bool (isGuest guest))) ∧
    (∃ body, injection (backendUrl environ) (isGuest guest) =
      lit "<script>" ++ body ++ lit "</script>" ∧ cp '<' ∉ body) ∧
    (Unpaired (backendUrl environ) →
      loads (scriptJson (.str (backendUrl environ))) = some (.str (backendUrl environ))) ∧
    loads (scriptJson (.bool (isGuest guest))) = some (.bool (isGuest guest)) :=
  ⟨rootIndex_eq environ guest style files,
    fun _ hc => ⟨markup_notMem_scriptJson _ hc, markup_notMem_scriptJson _ hc⟩,
    injection_closed _ _, loads_scriptJson_str, loads_scriptJson_bool _⟩

/-- A digest of zeros. -/
def zeroHash : AssetHash where
  text := List.replicate 64 (cp '0')
  length_eq := List.length_replicate
  hex := fun _ hc => ⟨0, by decide, (List.eq_of_mem_replicate hc).trans (by decide)⟩

/-- A URL that closes the script, and that holds the texts the later replacements search for. -/
def hostileUrl : Str := lit "\\</script>&href=\"/app.css\"src=\"/src/app.jsx\""

/-- An address that tries to end the script is read back unchanged. -/
theorem hostileUrl_injected :
    loads (scriptJson (.str hostileUrl)) = some (.str hostileUrl) := by
  have hencodable : encodable hostileUrl = true := by
    unfold hostileUrl
    rw [lit_eq_map rfl]
    rfl
  exact (rootIndex_injects (some hostileUrl) (some true) zeroHash
    [(lit "app.jsx", zeroHash)]).2.2.2.1 (unpaired_of_encodable hencodable)

end Ghpulse.Page
