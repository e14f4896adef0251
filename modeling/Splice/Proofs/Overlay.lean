import Splice.Overlay
import Splice.Proofs.FilterGraph.Reading

/-! # Reading the text over the hook

The drawing filter is read twice: as a part of a graph, which takes its quotes away, and then as
options, where a backslash makes the next character stand for itself and an open `:` ends an option.
What is escaped for both readings is found again after them, character for character.
-/

namespace Splice.Overlay

open FilterGraph

/-- Take backslashes away, the first character being escaped or not. A text must not end after a
backslash. -/
def unescape? : Bool → List Char → Option (List Symbol)
  | false, [] => some []
  | true, [] => none
  | false, c :: rest =>
    if c = '\\' then unescape? true rest else (unescape? false rest).map (.bare c :: ·)
  | true, c :: rest => (unescape? false rest).map (.literal c :: ·)

/-- Read an option: its name up to the first `=`, and its value. -/
def readOption? (symbols : List Symbol) : Option (String × String) :=
  match symbols.dropWhile (· != .bare '=') with
  | [] => none
  | _ :: value => some (symbolText (symbols.takeWhile (· != .bare '=')), symbolText value)

/-- Read options, first as a part of a graph. -/
def readOptions? (text : String) : Option (List (String × String)) := do
  let text ← unquote? text
  let symbols ← unescape? false text.toList
  (symbols.splitOn (.bare ':')).mapM readOption?

/-- Read options of which the graph is read already. -/
def optionsOf? (read : String) : Option (List (String × String)) := do
  let symbols ← unescape? false read.toList
  (symbols.splitOn (.bare ':')).mapM readOption?

/-- The characters of a quoted value that need a backslash. -/
def kept : List Char := ['\\', '\'', ':', '[', ']']

/-- A character of a quoted value once the graph is read. -/
def optionChar (c : Char) : List Char := if c ∈ kept then ['\\', c] else [c]

theorem escape_plain {s : String} (h : Avoids kept s) : escape s = s := by
  have each : ∀ c ∈ s.toList, escapeChar c = [c] := by
    intro c hc
    have := h c hc
    simp only [kept, List.mem_cons, List.not_mem_nil, or_false, not_or] at this
    simp [escapeChar, this]
  rw [escape, List.flatMap_congr each, List.flatMap_singleton', String.ofList_toList]

/-- A quoted value once the graph is read. -/
def optionText (s : String) : String := String.ofList (s.toList.flatMap optionChar)

/-- A character of a quoted value once it is read as an option. -/
def optionSymbol (c : Char) : Symbol := if c ∈ kept then .literal c else .bare c

theorem reads_escapeChar (c : Char) :
    Reads scan? .quoted (escapeChar c) ((optionChar c).map .literal) .quoted := by
  have backslash : Reads scan? .quoted ['\\'] [.literal '\\'] .quoted := reads_quoted (by decide)
  by_cases quote : c = '\''
  · subst quote
    have outside := (reads_escaped '\\').append (reads_escaped '\'')
    exact (reads_closeQuote.append outside).append reads_openQuote
  · have itself : Reads scan? .quoted [c] [.literal c] .quoted := reads_quoted quote
    by_cases needed : c ∈ kept
    · have escaped : escapeChar c = ['\\', c] := by
        simp only [kept, List.mem_cons, List.not_mem_nil, or_false, quote, false_or] at needed
        rcases needed with rfl | rfl | rfl | rfl <;> rfl
      rw [escaped, optionChar, if_pos needed]
      exact backslash.append itself
    · have plain : escapeChar c = [c] := by
        simp only [kept, List.mem_cons, List.not_mem_nil, or_false, not_or] at needed
        simp [escapeChar, needed]
      rwa [plain, optionChar, if_neg needed]

/-- Whatever a quoted value holds, it does not leave its quotes. -/
theorem piece_escape (s : String) : Piece ("'" ++ escape s ++ "'") (optionText s) := by
  have chars : Reads scan? .quoted (s.toList.flatMap escapeChar) _ .quoted :=
    Reads.flatMap fun c _ => reads_escapeChar c
  apply Piece.quoted
  simpa [escape, optionText, List.map_flatMap] using chars

theorem reads_bareOption {c : Char} (h : c ≠ '\\') :
    Reads unescape? false [c] [.bare c] false := by
  intro rest
  simp [unescape?, h]

theorem reads_optionChar (c : Char) : Reads unescape? false (optionChar c) [optionSymbol c] false := by
  by_cases needed : c ∈ kept
  · rw [optionChar, optionSymbol, if_pos needed, if_pos needed]
    intro rest
    simp [unescape?]
  · rw [optionChar, optionSymbol, if_neg needed, if_neg needed]
    apply reads_bareOption
    rintro rfl
    exact needed (by decide)

theorem reads_optionText (s : String) :
    Reads unescape? false (optionText s).toList (s.toList.map optionSymbol) false := by
  have chars := Reads.flatMap fun c (_ : c ∈ s.toList) => reads_optionChar c
  rw [optionText, String.toList_ofList, List.map_eq_flatMap]
  exact chars

theorem reads_plainText {s : String} (h : Avoids ['\\'] s) :
    Reads unescape? false s.toList (s.toList.map .bare) false := by
  apply Reads.map
  intro c hc
  exact reads_bareOption fun same => h c hc (by simp [same])

theorem char_optionSymbol (c : Char) : (optionSymbol c).char = c := by
  rw [optionSymbol]
  split <;> rfl

theorem optionSymbol_ne_colon (c : Char) : optionSymbol c ≠ .bare ':' := by
  rw [optionSymbol]
  split
  case isTrue => simp
  case isFalse open_char =>
    intro same
    obtain rfl := Symbol.bare.inj same
    exact open_char (by decide)

/-- The characters that have a meaning for one of the two readings. -/
def marks : List Char := ',' :: ':' :: signs

namespace DrawOption

/-- An option once the graph is read. -/
def unquoted (o : DrawOption) : String :=
  o.name ++ "=" ++ if o.quoted then optionText o.value else o.value

def valueSymbols (o : DrawOption) : List Symbol :=
  o.value.toList.map (if o.quoted then optionSymbol else .bare)

def symbols (o : DrawOption) : List Symbol :=
  o.name.toList.map .bare ++ .bare '=' :: o.valueSymbols

/-- An option whose marks are all quoted. -/
structure Tidy (o : DrawOption) : Prop where
  name : Avoids ('=' :: marks) o.name
  value : o.quoted = false → Avoids marks o.value

namespace Tidy

theorem of_quoted {name : String} (h : Avoids ('=' :: marks) name) (value : String) :
    Tidy ⟨name, value, true⟩ :=
  ⟨h, by simp⟩

theorem of_value {name value : String} (h : Avoids ('=' :: marks) name) (h' : Avoids marks value) :
    Tidy { name, value } :=
  ⟨h, fun _ => h'⟩

variable {o : DrawOption}

theorem piece (h : o.Tidy) : Piece o.text o.unquoted := by
  have name : Piece o.name o.name := Piece.plain (h.name.mono (by decide))
  have equals : Piece "=" "=" := Piece.plain (by decide)
  refine (name.append equals).append ?_
  cases quoted : o.quoted with
  | true => exact piece_escape o.value
  | false => exact Piece.plain ((h.value quoted).mono (by decide))

theorem reads (h : o.Tidy) : Reads unescape? false o.unquoted.toList o.symbols false := by
  have name := reads_plainText (h.name.mono (by decide))
  have equals : Reads unescape? false ['='] [.bare '='] false := reads_bareOption (by decide)
  have value : Reads unescape? false (if o.quoted then optionText o.value else o.value).toList
      o.valueSymbols false := by
    rw [valueSymbols]
    cases quoted : o.quoted with
    | true => exact reads_optionText o.value
    | false => exact reads_plainText ((h.value quoted).mono (by decide))
  simpa [unquoted, symbols] using (name.append equals).append value

theorem noColon (h : o.Tidy) : .bare ':' ∉ o.symbols := by
  simp only [symbols, List.mem_append, List.mem_cons, not_or]
  refine ⟨fun hm => ?_, by simp, fun hm => ?_⟩
  · obtain ⟨c, hc, same⟩ := List.mem_map.mp hm
    obtain rfl := Symbol.bare.inj same
    exact h.name _ hc (by decide)
  · obtain ⟨c, hc, same⟩ := List.mem_map.mp hm
    cases quoted : o.quoted with
    | true =>
        simp only [quoted] at same
        exact optionSymbol_ne_colon c same
    | false =>
        simp only [quoted] at same
        obtain rfl := Symbol.bare.inj same
        exact h.value quoted _ hc (by decide)

theorem readOption?_symbols (h : o.Tidy) : readOption? o.symbols = some (o.name, o.value) := by
  have name : ∀ s ∈ o.name.toList.map Symbol.bare, (s != .bare '=') = true := by
    intro s hs
    obtain ⟨c, hc, rfl⟩ := List.mem_map.mp hs
    rw [bne_iff_ne]
    intro same
    obtain rfl := Symbol.bare.inj same
    exact h.name _ hc (by decide)
  have value : symbolText o.valueSymbols = o.value := by
    rw [valueSymbols]
    cases o.quoted with
    | true => exact symbolText_map char_optionSymbol o.value
    | false => exact symbolText_map char_bare o.value
  rw [readOption?, symbols, List.dropWhile_append_of_pos name, List.takeWhile_append_of_pos name]
  simp [value, symbolText_map char_bare]

end Tidy
end DrawOption

theorem optionsOf?_intercalate {os : List DrawOption} (some_option : os ≠ [])
    (tidy : ∀ o ∈ os, o.Tidy) :
    optionsOf? (":".intercalate (os.map DrawOption.unquoted)) =
      some (os.map fun o => (o.name, o.value)) := by
  have between : Reads unescape? false [':'] [.bare ':'] false := reads_bareOption (by decide)
  have symbols := (Reads.intercalate between fun o ho => (tidy o ho).reads).scan_eq rfl
  have text : (":".intercalate (os.map DrawOption.unquoted)).toList =
      [':'].intercalate (os.map fun o => o.unquoted.toList) := by
    simp [Function.comp_def]
  have noColon : ∀ l ∈ os.map DrawOption.symbols, .bare ':' ∉ l := by
    intro l hl
    obtain ⟨o, ho, rfl⟩ := List.mem_map.mp hl
    exact (tidy o ho).noColon
  simp only [optionsOf?, Option.bind_eq_bind, Option.bind_some, text, symbols]
  rw [List.splitOn_intercalate _ noColon (by simpa using some_option)]
  exact mapM_map_eq_some fun o ho => (tidy o ho).readOption?_symbols

/-- A filter of options is one piece of a graph, and keeps its name in front of them. -/
theorem piece_options {start : String} (plain : Avoids marks start) {os : List DrawOption}
    (tidy : ∀ o ∈ os, o.Tidy) :
    Piece (start ++ ":".intercalate (os.map DrawOption.text))
      (start ++ ":".intercalate (os.map DrawOption.unquoted)) := by
  have name : Piece start start := Piece.plain (plain.mono (by decide))
  have colon : Piece ":" ":" := Piece.plain (by decide)
  exact name.append (Piece.intercalate colon fun o ho => (tidy o ho).piece)

/-- Options that keep their marks in quotes are read back, whatever their values are. -/
theorem readOptions?_intercalate {os : List DrawOption} (some_option : os ≠ [])
    (tidy : ∀ o ∈ os, o.Tidy) :
    readOptions? (":".intercalate (os.map DrawOption.text)) =
      some (os.map fun o => (o.name, o.value)) := by
  have colon : Piece ":" ":" := Piece.plain (by decide)
  have unquoted := (Piece.intercalate colon fun o ho => (tidy o ho).piece).unquote?
  have twice (text : String) : readOptions? text = (unquote? text).bind optionsOf? := rfl
  rw [twice, unquoted, Option.bind_some, optionsOf?_intercalate some_option tidy]

theorem fontOption_tidy (style : TextStyle) (fonts : Fonts) : (fontOption style fonts).Tidy := by
  rw [fontOption]
  split
  · exact .of_quoted (by decide) _
  · exact .of_quoted (by decide) _

theorem place_avoids (position : Option TextPosition) :
    Avoids marks (place position).1 ∧ Avoids marks (place position).2 := by
  cases position with
  | none => decide
  | some p =>
      simp (disch := decide) only [place, Avoids.append_iff, Binary64.avoids_fixed, and_true]
      decide

theorem boxOptions_tidy : ∀ o ∈ boxOptions, o.Tidy := by
  simp only [boxOptions, List.forall_mem_cons]
  refine ⟨?_, ?_, ?_, by simp⟩
  all_goals exact .of_value (by decide) (by decide)

theorem options_tidy (text : String) (style : TextStyle) (color : Color)
    (position : Option TextPosition) (hookDuration : Binary64) (fonts : Fonts) :
    ∀ o ∈ options text style color position hookDuration fonts, o.Tidy := by
  obtain ⟨x, y⟩ := place_avoids position
  have size : Avoids marks (toString style.pixels) := (numeral_nat _).avoids (by decide)
  have fontColor := @Color.avoids_engineText marks (by decide) (by decide) color
  have box : ∀ o ∈ if style.background then boxOptions else [], o.Tidy := by
    split
    · exact boxOptions_tidy
    · simp
  simp only [options, List.forall_mem_append, List.forall_mem_cons]
  refine ⟨⟨⟨fontOption_tidy style fonts, .of_quoted (by decide) text, .of_value (by decide) size,
    .of_value (by decide) fontColor, .of_value (by decide) x, .of_value (by decide) y, ?_, ?_, ?_, ?_,
    ?_, by simp⟩, box⟩, .of_quoted (by decide) _, by simp⟩
  all_goals exact .of_value (by decide) (by decide)

def Shown (text : Option String) : Prop :=
  ∃ s, text = some s ∧ ∃ c ∈ s.toList, Text.isBlank c = false

theorem isBlankText_eq_false {s : String} :
    Text.isBlankText s = false ↔ ∃ c ∈ s.toList, Text.isBlank c = false := by
  simp [Text.isBlankText]

theorem filter_of_shown {text : Option String} {s : String} (h : text = some s)
    (shown : ∃ c ∈ s.toList, Text.isBlank c = false) (style : Option TextStyle)
    (position : Option TextPosition) (hookDuration : Binary64) (fonts : Fonts) :
    filter text style position hookDuration fonts =
      (Color.ofValue (style.getD {}).color).map fun color => "drawtext=" ++
        ":".intercalate ((options s (style.getD {}) color position hookDuration fonts).map
          DrawOption.text) := by
  have kept : text.filter (fun s => !Text.isBlankText s) = some s := by
    simp [h, Option.filter, isBlankText_eq_false.mpr shown]
  simp only [filter, kept]
  cases Color.ofValue (style.getD {}).color with
  | ok color => rfl
  | error e => rfl

theorem filter_of_not_shown {text : Option String} (h : ¬ Shown text) (style : Option TextStyle)
    (position : Option TextPosition) (hookDuration : Binary64) (fonts : Fonts) :
    filter text style position hookDuration fonts = .ok "" := by
  have dropped : text.filter (fun s => !Text.isBlankText s) = none := by
    cases text with
    | none => rfl
    | some s =>
        have blank : Text.isBlankText s = true := by
          by_contra visible
          exact h ⟨s, rfl, isBlankText_eq_false.mp (by simpa using visible)⟩
        simp [Option.filter, blank]
  simp only [filter, dropped]

/-- A text with something to show makes one filter, whatever it is; any other text makes none. -/
theorem piece_filter {text : Option String} {style : Option TextStyle}
    {position : Option TextPosition} {hookDuration : Binary64} {fonts : Fonts} {overlay : String}
    (h : filter text style position hookDuration fonts = .ok overlay) :
    (Shown text → ∃ options, Piece overlay ("drawtext=" ++ options)) ∧
      (¬ Shown text → overlay = "") := by
  constructor
  · rintro ⟨s, rfl, shown⟩
    rw [filter_of_shown rfl shown] at h
    cases accepted : Color.ofValue (style.getD {}).color with
    | error e => simp [accepted, Except.map] at h
    | ok color =>
        rw [accepted] at h
        obtain rfl := Except.ok.inj h
        have tidy := options_tidy s (style.getD {}) color position hookDuration fonts
        exact ⟨_, piece_options (by decide) tidy⟩
  · intro hidden
    rw [filter_of_not_shown hidden] at h
    exact (Except.ok.inj h).symm

/-- The text over the hook is drawn with the options that were asked for: both readings of what is
written give them back, in order, with the text and the path of its font character for character. -/
theorem read_filter (s : String) (style : Option TextStyle) (position : Option TextPosition)
    (hookDuration : Binary64) (fonts : Fonts) {color : Color}
    (shown : ∃ c ∈ s.toList, Text.isBlank c = false)
    (accepted : Color.ofValue (style.getD {}).color = .ok color) :
    let look := style.getD {}
    let file := if look.bold then (named fonts.bold).or (named fonts.regular)
      else named fonts.regular
    ∃ fragment, filter (some s) style position hookDuration fonts = .ok ("drawtext=" ++ fragment) ∧
      readOptions? fragment = some (
        [match file with
          | some path => ("fontfile", path)
          | none => ("font", if look.bold then "Sans:style=Bold" else "Sans"),
          ("text", s),
          ("fontsize", toString look.pixels),
          ("fontcolor", color.engineText),
          ("x", (place position).1),
          ("y", (place position).2),
          ("borderw", "3"),
          ("bordercolor", "black"),
          ("shadowcolor", "black@0.7"),
          ("shadowx", "3"),
          ("shadowy", "3")] ++
        (if look.background then [("box", "1"), ("boxcolor", "black@0.5"), ("boxborderw", "15")]
          else []) ++
        [("enable", "between(t,0," ++ hookDuration.fixed 3 ++ ")")]) := by
  intro look file
  have tidy := options_tidy s look color position hookDuration fonts
  have read := readOptions?_intercalate (by simp [options]) tidy
  refine ⟨_, ?_, read.trans ?_⟩
  · rw [filter_of_shown rfl shown, accepted]
    rfl
  · have font : fontOption look fonts = match file with
        | some path => ⟨"fontfile", path, true⟩
        | none => ⟨"font", if look.bold then "Sans:style=Bold" else "Sans", true⟩ := rfl
    have box : (if look.background then boxOptions else []).map (fun o => (o.name, o.value)) =
        if look.background then [("box", "1"), ("boxcolor", "black@0.5"), ("boxborderw", "15")]
        else [] := by
      cases look.background <;> rfl
    simp only [options, font, List.map_append, List.map_cons, List.map_nil, box]
    cases file with
    | some path => rfl
    | none => rfl

theorem read_filter_marks :
    ∃ fragment, filter (some "'it's; [x],\\") none none 5 ⟨some "C:\\it's.ttf", none⟩ =
        .ok ("drawtext=" ++ fragment) ∧
      (readOptions? fragment).map (·.take 2) =
        some [("fontfile", "C:\\it's.ttf"), ("text", "'it's; [x],\\")] := by
  have white : Color.ofValue (Option.getD none ({} : TextStyle)).color =
      .ok ⟨255, 255, 255, none⟩ := rfl
  obtain ⟨fragment, drawn, read⟩ := read_filter "'it's; [x],\\" none none 5
    ⟨some "C:\\it's.ttf", none⟩ ⟨'i', by decide, by decide⟩ white
  exact ⟨fragment, drawn, by rw [read]; rfl⟩

end Splice.Overlay
