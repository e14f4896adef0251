import Splice.Blend
import Splice.CameraEffect
import Splice.Clip
import Splice.Overlay
import Splice.Soundtrack
import Splice.Text.Arguments

/-! # Engine programs

An edit configuration and the facts of two clips give one graph and one argument list for the engine.
The chains of the graph are, in order: the picture of the hook, the picture of the demo, the sound of
each clip that is heard, the combined picture, and the combined sound if there is any.
-/

namespace Splice

/-- Choices of encoder and fonts. -/
structure EncoderOptions where
  preset : Option String := some "medium"
  /-- The quality factor; any value that can be written is written as its text. -/
  quality : Value := .int 23
  bitrate : Option String := some "128k"
  fonts : Overlay.Fonts := {}

/-- What the engine runs for one job. -/
structure Program where
  /-- The arguments after the name of the engine. An argument without a text is a setting that was
  set to nothing. -/
  arguments : List (Option String)
  graphText : String
  outputPath : String
  hasAudio : Bool
  timing : Timing
  blend : Option Blend
  expectedDuration : Binary64
  requiredFilters : List String

namespace Program

/-- Why there is no program. -/
inductive Error where
  | window (e : Timing.EmptyWindow)
  | color (e : Color.ReadError)
  /-- A count of frames, pixels or milliseconds is no whole number. -/
  | whole (e : Binary64.WholeError)
  | graph (f : FilterGraph.Fault)
  /-- The quality factor is too long to be written. -/
  | unwritable

/-- Report a cause as the cause of a missing program. -/
def because {ε α : Type} (cause : ε → Error) : Except ε α → Except Error α
  | .ok a => .ok a
  | .error e => .error (cause e)

def ofSoundtrack : Soundtrack.Error → Error
  | .graph f => .graph f
  | .delay e => .whole e

/-- The filters that cut a clip and bring it to the canonical frame. -/
def normalize (start duration : Binary64) (trimmed : Bool) : List String :=
  (if trimmed then
    ["trim=start=" ++ start.fixed 3 ++ ":duration=" ++ duration.fixed 3, "setpts=PTS-STARTPTS"]
  else []) ++
  ["scale=" ++ CameraEffect.frameSize ":" ++ ":force_original_aspect_ratio=decrease",
    "pad=" ++ CameraEffect.frameSize ":" ++ ":(ow-iw)/2:(oh-ih)/2:black",
    "setsar=1",
    "fps=" ++ toString Timing.framesPerSecond]

/-- The filters of a picture: effects leave the aspect ratio of a pixel open, so that it is set again
after one. -/
def pictureFilters (start duration : Binary64) (trimmed : Bool) (effect overlay : String) :
    List String :=
  normalize start duration trimmed ++ (if effect.isEmpty then [] else [effect, "setsar=1"]) ++
    (if overlay.isEmpty then [] else [overlay])

def addPicture (g : FilterGraph) (index : Int) (filters : List String) :
    Except FilterGraph.Fault (String × FilterGraph) := do
  let (pad, g) := g.newPad "v"
  let stream ← g.inputStream index "v"
  let (_, g) ← g.add [stream] filters [pad]
  return (pad, g)

def isTrimmed (trim : Option Trim) : Bool := trim.any Trim.active

def joinFilter : Option Blend → String
  | some b => b.filter
  | none => "concat=n=2:v=1:a=0"

def expectedLength (t : Timing) : Option Blend → Binary64
  | some b => b.outputDuration t.demoDuration
  | none => t.hookDuration + t.demoDuration

/-- What is settled before the graph is written. -/
structure Assembly where
  timing : Timing
  blend : Option Blend
  graph : FilterGraph
  hasAudio : Bool
  overlay : String

def addOutputs (g : FilterGraph) (config : EditConfig) (t : Timing) (blend : Option Blend)
    (hook demo : String) (pads : Option Soundtrack.Pads) : Except Error FilterGraph := do
  let (_, g) ← because .graph (g.add [hook, demo] [joinFilter blend] [FilterGraph.outputVideo])
  let g := g.map FilterGraph.outputVideo
  match pads with
  | none => return g
  | some pads =>
    let g ← because ofSoundtrack (Soundtrack.addCombine g pads config.audioSource t)
    return g.map FilterGraph.outputAudio

/-- Settle the windows, the blend and the graph. -/
def assemble (config : EditConfig) (hook demo : Clip) (text : Option String)
    (fonts : Overlay.Fonts) : Except Error Assembly := do
  let t ← because .window
    (Timing.resolve config.hookTrim config.demoTrim hook.duration demo.duration)
  let overlay ← because .color
    (Overlay.filter text config.textStyle config.textPosition t.hookDuration fonts)
  let hookFrames ← because .whole t.hookFrames
  let hookEffect ← because .whole (CameraEffect.filter config.hookEffect hookFrames)
  let (hookPad, g) ← because .graph (addPicture ⟨2, [], [], []⟩ 0
    (pictureFilters t.hookStart t.hookDuration (isTrimmed config.hookTrim) hookEffect overlay))
  let demoFrames ← because .whole t.demoFrames
  let demoEffect ← because .whole (CameraEffect.filter config.demoEffect demoFrames)
  let (demoPad, g) ← because .graph (addPicture g 1
    (pictureFilters t.demoStart t.demoDuration (isTrimmed config.demoTrim) demoEffect ""))
  let (pads, g) ← because .graph
    (Soundtrack.addSources g config.audioSource hook.hasAudio demo.hasAudio t)
  let blend := Blend.plan? config.transition t.hookDuration
  let g ← addOutputs g config t blend hookPad demoPad pads
  return ⟨t, blend, g, pads.isSome, overlay⟩

structure Files where
  hook : String
  demo : String
  output : String

def mapArguments (pads : List String) : List String :=
  pads.flatMap fun pad => ["-map", padText pad]

def soundArguments (options : EncoderOptions) (hasAudio : Bool) : List (Option String) :=
  if hasAudio then
    [some "-c:a", some "aac", some "-b:a", options.bitrate, some "-ar", some "44100"]
  else [some "-an"]

def argumentsOf (files : Files) (options : EncoderOptions) (graphText : String)
    (mapped : List String) (hasAudio : Bool) : List (Option String) :=
  (["-y", "-hide_banner", "-nostdin", "-i", files.hook, "-i", files.demo,
      "-filter_complex", graphText] ++ mapArguments mapped ++
    ["-c:v", "libx264", "-preset"]).map some ++ [options.preset] ++
  ["-crf", options.quality.display, "-pix_fmt", "yuv420p", "-r",
    toString Timing.framesPerSecond].map some ++
  soundArguments options hasAudio ++
  ["-movflags", "+faststart", files.output].map some

def compile (config : EditConfig) (files : Files) (hook demo : Clip) (text : Option String)
    (options : EncoderOptions) : Except Error Program := do
  let a ← assemble config hook demo text options.fonts
  let graphText ← because .graph a.graph.text
  if options.quality.isWritable then
    return {
      arguments := argumentsOf files options graphText a.graph.mapped a.hasAudio
      graphText
      outputPath := files.output
      hasAudio := a.hasAudio
      timing := a.timing
      blend := a.blend
      expectedDuration := expectedLength a.timing a.blend
      requiredFilters := if a.overlay.isEmpty then [] else ["drawtext"] }
  else throw .unwritable

def command (p : Program) (engine : Option String) : List (Option String) := engine :: p.arguments

/-- A command as one text; none if an argument has no text. -/
def commandText? (command : List (Option String)) : Option String :=
  (command.mapM id).map Text.argumentList

end Program
end Splice
