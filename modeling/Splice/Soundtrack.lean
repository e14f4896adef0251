import Splice.FilterGraph.Basic
import Splice.Timing

/-! # The sound of the output

One chain for each clip that is heard, and one that combines them. A clip without sound is replaced by
silence of its length. The hook alone is padded to the length of both clips; the demo alone is
delayed by the length of the hook and not padded.
-/

namespace Splice.Soundtrack

def format : String := "aformat=sample_fmts=fltp:sample_rates=44100:channel_layouts=stereo"

def silence : String := "anullsrc=channel_layout=stereo:sample_rate=44100"

def needsHook (source : AudioSource) : Bool := source == .hook || source == .both

def needsDemo (source : AudioSource) : Bool := source == .demo || source == .both

/-- The pads of the clips that are heard. -/
structure Pads where
  hook : Option String
  demo : Option String

inductive Error where
  | graph (f : FilterGraph.Fault)
  | delay (e : Binary64.WholeError)

def ofGraph {α : Type} : Except FilterGraph.Fault α → Except Error α
  | .ok a => .ok a
  | .error f => .error (.graph f)

/-- The filters of the sound of a clip, or of the silence in its place. -/
def clipFilters (hasAudio : Bool) (start duration : Binary64) : List String :=
  if hasAudio then
    ["atrim=start=" ++ start.fixed 3 ++ ":duration=" ++ duration.fixed 3, "asetpts=PTS-STARTPTS",
      format]
  else [silence, "atrim=duration=" ++ duration.fixed 3, format]

/-- What the sound of a clip is made from: its stream, or nothing if it is silence. -/
def clipInputs (g : FilterGraph) (index : Int) (hasAudio : Bool) :
    Except FilterGraph.Fault (List String) :=
  if hasAudio then (g.inputStream index "a").map ([·]) else .ok []

/-- Add the chain of one clip, and give its pad. -/
def addSide (g : FilterGraph) (index : Int) (hasAudio : Bool) (start duration : Binary64) :
    Except FilterGraph.Fault (String × FilterGraph) := do
  let (pad, g) := g.newPad "a"
  let inputs ← clipInputs g index hasAudio
  let (_, g) ← g.add inputs (clipFilters hasAudio start duration) [pad]
  return (pad, g)

/-- Add the chains of the clips that are heard, the hook first. -/
def addSources (g : FilterGraph) (source : AudioSource) (hookHasAudio demoHasAudio : Bool)
    (t : Timing) : Except FilterGraph.Fault (Option Pads × FilterGraph) := do
  if source = .none then return (none, g)
  let (hook, g) ←
    if needsHook source then do
      let (pad, g) ← addSide g 0 hookHasAudio t.hookStart t.hookDuration
      pure (some pad, g)
    else pure (none, g)
  let (demo, g) ←
    if needsDemo source then do
      let (pad, g) ← addSide g 1 demoHasAudio t.demoStart t.demoDuration
      pure (some pad, g)
    else pure (none, g)
  return (some ⟨hook, demo⟩, g)

/-- The filter that makes the sound of the output from the pads. -/
def combineFilter (source : AudioSource) (t : Timing) : Except Binary64.WholeError String :=
  match source with
  | .hook => .ok ("apad=whole_dur=" ++ (t.hookDuration + t.demoDuration).fixed 3)
  | .demo =>
    ((t.hookDuration * 1000).nearest).map fun delay =>
      "adelay=" ++ toString delay ++ "|" ++ toString delay
  | _ => .ok "concat=n=2:v=0:a=1"

/-- Add the chain that makes the sound of the output. -/
def addCombine (g : FilterGraph) (pads : Pads) (source : AudioSource) (t : Timing) :
    Except Error FilterGraph :=
  match combineFilter source t with
  | .error e => .error (.delay e)
  | .ok filter =>
    ofGraph ((g.add (pads.hook.toList ++ pads.demo.toList) [filter]
      [FilterGraph.outputAudio]).map (·.2))

end Splice.Soundtrack
