import Splice.Color.Basic
import Splice.EditConfig.Basic

/-! # The text over the hook

One drawing filter with a list of options. A quoted value is read twice by the engine: as a part of
the graph, where single quotes keep everything, and as an option, where a backslash keeps the next
character; `escapeChar` prepares it for both.
-/

namespace Splice.Overlay

/-- A character inside a quoted value. A quote has to close the quotes, add itself with backslashes
for both readings, and open them again. -/
def escapeChar (c : Char) : List Char :=
  if c = '\\' then ['\\', '\\']
  else if c = '\'' then ['\'', '\\', '\\', '\\', '\'', '\'']
  else if c = ':' ∨ c = '[' ∨ c = ']' then ['\\', c]
  else [c]

def escape (s : String) : String := String.ofList (s.toList.flatMap escapeChar)

structure DrawOption where
  name : String
  value : String
  quoted : Bool := false

def DrawOption.text (o : DrawOption) : String :=
  o.name ++ "=" ++ if o.quoted then "'" ++ escape o.value ++ "'" else o.value

/-- The coordinates of the text: its centre at a place in percent, or the centre of the frame. -/
def place (position : Option TextPosition) : String × String :=
  match position with
  | none => ("(w-text_w)/2", "(h-text_h)/2")
  | some p =>
    ("(w*" ++ (p.xPercent / 100).fixed 4 ++ ")-(text_w/2)",
      "(h*" ++ (p.yPercent / 100).fixed 4 ++ ")-(text_h/2)")

structure Fonts where
  regular : Option String := none
  bold : Option String := none

def named (file : Option String) : Option String := file.filter (!·.isEmpty)

/-- The font of a style: a file, or the default family of the engine. Bold text takes the regular file
if there is no bold one. -/
def fontOption (style : TextStyle) (fonts : Fonts) : DrawOption :=
  let file := if style.bold then (named fonts.bold).or (named fonts.regular) else named fonts.regular
  match file with
  | some path => ⟨"fontfile", path, true⟩
  | none => ⟨"font", if style.bold then "Sans:style=Bold" else "Sans", true⟩

def boxOptions : List DrawOption :=
  [{ name := "box", value := "1" }, { name := "boxcolor", value := "black@0.5" },
    { name := "boxborderw", value := "15" }]

/-- All options of the text, in order. The text shows while the hook does. -/
def options (text : String) (style : TextStyle) (color : Color) (position : Option TextPosition)
    (hookDuration : Binary64) (fonts : Fonts) : List DrawOption :=
  let (x, y) := place position
  [fontOption style fonts,
    ⟨"text", text, true⟩,
    { name := "fontsize", value := toString style.pixels },
    { name := "fontcolor", value := color.engineText },
    { name := "x", value := x },
    { name := "y", value := y },
    { name := "borderw", value := "3" },
    { name := "bordercolor", value := "black" },
    { name := "shadowcolor", value := "black@0.7" },
    { name := "shadowx", value := "3" },
    { name := "shadowy", value := "3" }] ++
    (if style.background then boxOptions else []) ++
    [⟨"enable", "between(t,0," ++ hookDuration.fixed 3 ++ ")", true⟩]

def isShown (text : Option String) : Bool :=
  text.any fun s => !Text.isBlankText s

/-- The filter that draws a text; empty if there is none to show. -/
def filter (text : Option String) (style : Option TextStyle) (position : Option TextPosition)
    (hookDuration : Binary64) (fonts : Fonts) : Except Color.ReadError String :=
  match text.filter fun s => !Text.isBlankText s with
  | none => .ok ""
  | some s =>
    let style := style.getD {}
    match Color.ofValue style.color with
    | .error e => .error e
    | .ok color =>
      .ok ("drawtext=" ++
        ":".intercalate ((options s style color position hookDuration fonts).map DrawOption.text))

end Splice.Overlay
