import Splice.Proofs.FilterGraph.WellFormed
import Splice.Proofs.Program.Chains

/-! # The layout of a program

Which pads the chains of a program read and write depends on the choice of sound and on which clips
have sound, and on nothing else. The graph of such a layout is well formed, so that no configuration
makes a program fail at its graph; the arguments send to the output what the graph makes for it.
-/

namespace Splice

namespace Program

/-- The wiring of the sound of a clip: its stream, or silence, which reads nothing. -/
def clipWiring (stream : String) (hasAudio : Bool) (pad : String) : Wiring :=
  ⟨if hasAudio then [stream] else [], [pad]⟩

/-- The wiring of a program: the pictures, the sound of each clip that is heard, the combined
picture, and the combined sound if there is any. -/
def layout (source : AudioSource) (hookHasAudio demoHasAudio : Bool) : List Wiring :=
  let picture : Wiring := ⟨["v0", "v1"], ["outv"]⟩
  [⟨["0:v"], ["v0"]⟩, ⟨["1:v"], ["v1"]⟩] ++
    match source with
    | .none => [picture]
    | .hook => [clipWiring "0:a" hookHasAudio "a0", picture, ⟨["a0"], ["outa"]⟩]
    | .demo => [clipWiring "1:a" demoHasAudio "a0", picture, ⟨["a0"], ["outa"]⟩]
    | .both => [clipWiring "0:a" hookHasAudio "a0", clipWiring "1:a" demoHasAudio "a1", picture,
        ⟨["a0", "a1"], ["outa"]⟩]

theorem Parts.chains_wiring (p : Parts) (config : EditConfig) (hook demo : Clip) :
    (p.hookChain config :: p.laterChains config hook demo).map Chain.wiring =
      layout config.audioSource hook.hasAudio demo.hasAudio := by
  cases source : config.audioSource <;>
    simp [hookChain, laterChains, demoChain, source, layout, Chain.wiring,
      Soundtrack.clipChains, Soundtrack.clipChain, clipWiring, Soundtrack.combineChains,
      Soundtrack.clipPads, FilterGraph.outputVideo, FilterGraph.outputAudio]

def bare (source : AudioSource) (hookHasAudio demoHasAudio : Bool) : FilterGraph where
  inputCount := 2
  chains := (layout source hookHasAudio demoHasAudio).map fun w => ⟨w.inputs, [], w.outputs⟩
  mapped := sentPads source

theorem bare_wellFormed (source : AudioSource) (hookHasAudio demoHasAudio : Bool) :
    (bare source hookHasAudio demoHasAudio).WellFormed := by
  cases source <;> cases hookHasAudio <;> cases demoHasAudio <;> decide

theorem Parts.wellFormed (p : Parts) (config : EditConfig) (hook demo : Clip)
    (counters : List (String × Nat)) :
    (FilterGraph.mk 2 (p.hookChain config :: p.laterChains config hook demo)
      (sentPads config.audioSource) counters).WellFormed := by
  refine FilterGraph.wellFormed_congr ?_ ?_
    (bare_wellFormed config.audioSource hook.hasAudio demo.hasAudio)
  · simp [p.chains_wiring, bare, Chain.wiring, Function.comp_def]
  · rfl

theorem text_eq_of_wellFormed {g : FilterGraph} (h : g.WellFormed) :
    g.text = .ok (";".intercalate (g.chains.map Chain.text)) := by
  simp [FilterGraph.text, FilterGraph.check_eq_ok_iff.mpr h]

def Parts.program (p : Parts) (config : EditConfig) (files : Files) (hook demo : Clip)
    (options : EncoderOptions) : Program :=
  let graphText := ";".intercalate
    ((p.hookChain config :: p.laterChains config hook demo).map Chain.text)
  { arguments := argumentsOf files options graphText (sentPads config.audioSource)
      (config.audioSource != .none)
    graphText
    outputPath := files.output
    hasAudio := config.audioSource != .none
    timing := p.timing
    blend := p.blend config
    expectedDuration := expectedLength p.timing (p.blend config)
    requiredFilters := if p.overlay.isEmpty then [] else ["drawtext"] }

/-- There is a program when every generator makes its part, unless its quality factor is too long to
be written. -/
theorem compile_eq (config : EditConfig) (files : Files) (hook demo : Clip) (text : Option String)
    (options : EncoderOptions) : compile config files hook demo text options =
      parts config hook demo text options.fonts >>= fun p =>
        if options.quality.isWritable then .ok (p.program config files hook demo options)
        else .error .unwritable := by
  obtain ⟨counters, assembled⟩ := assemble_eq config hook demo text options.fonts
  rw [compile, assembled]
  cases parts config hook demo text options.fonts with
  | error e => rfl
  | ok p =>
      have written := text_eq_of_wellFormed (p.wellFormed config hook demo counters)
      simp only [Except.map, Outcome.ok_bind, written, because_ok]
      cases options.quality.isWritable <;> rfl

theorem compile_eq_ok {config : EditConfig} {files : Files} {hook demo : Clip}
    {text : Option String} {options : EncoderOptions} {q : Program} :
    compile config files hook demo text options = .ok q ↔
      ∃ p, parts config hook demo text options.fonts = .ok p ∧
        options.quality.isWritable = true ∧ p.program config files hook demo options = q := by
  rw [compile_eq, Outcome.bind_eq_ok]
  cases options.quality.isWritable <;> simp

theorem because_eq_error {ε α : Type} {cause : ε → Error} {x : Except ε α} {e : Error}
    (h : because cause x = .error e) : ∃ c, e = cause c := by
  cases x with
  | ok a => simp [because] at h
  | error c => exact ⟨c, by simpa [because] using h.symm⟩

theorem parts_ne_graph {config : EditConfig} {hook demo : Clip} {text : Option String}
    {fonts : Overlay.Fonts} {e : Error} (h : parts config hook demo text fonts = .error e)
    (f : FilterGraph.Fault) : e ≠ .graph f := by
  have other {ε α : Type} {cause : ε → Error} {x : Except ε α} (apart : ∀ c, cause c ≠ .graph f)
      (hx : because cause x = .error e) : e ≠ .graph f := by
    obtain ⟨c, rfl⟩ := because_eq_error hx
    exact apart c
  simp only [parts, combinePart, Outcome.bind_eq_error, Outcome.pure_eq] at h
  rcases h with h | ⟨t, -, h⟩
  · exact other (by simp) h
  rcases h with h | ⟨overlay, -, h⟩
  · exact other (by simp) h
  rcases h with h | ⟨hookFrames, -, h⟩
  · exact other (by simp) h
  rcases h with h | ⟨hookEffect, -, h⟩
  · exact other (by simp) h
  rcases h with h | ⟨demoFrames, -, h⟩
  · exact other (by simp) h
  rcases h with h | ⟨demoEffect, -, h⟩
  · exact other (by simp) h
  rcases h with h | ⟨combine, -, h⟩
  · split at h
    · simp at h
    · exact other (by simp) h
  · simp at h

/-- One item of a list of arguments. -/
inductive Argument where
  | flag (name : String)
  | option (name : String) (value : Option String)
  | file (path : Option String)

/-- The options that stand alone. -/
def flags : List String := ["-y", "-hide_banner", "-nostdin", "-an"]

/-- Read arguments from left to right, as the engine does. An option takes the next argument as its
value, so that a path spelled like an option is none; what is left at the end is a file. -/
def readArguments : List (Option String) → List Argument
  | some name :: value :: rest =>
    if flags.contains name then .flag name :: readArguments (value :: rest)
    else .option name value :: readArguments rest
  | rest => rest.map .file

/-- What an item sends to the output, if it does. -/
def Argument.sent? : Argument → Option (Option String)
  | .option name value => if name = "-map" then some value else none
  | _ => none

theorem sent_readArguments (files : Files) (options : EncoderOptions) (graphText : String)
    (source : AudioSource) :
    (readArguments (argumentsOf files options graphText (sentPads source) (source != .none))).filterMap
      Argument.sent? =
      some "[outv]" :: if source = .none then [] else [some "[outa]"] := by
  cases source <;>
    simp [argumentsOf, mapArguments, sentPads, soundArguments, readArguments, flags, List.filterMap_cons,
      Argument.sent?, FilterGraph.outputVideo, FilterGraph.outputAudio, padText]

theorem mute_mem_readArguments (files : Files) (options : EncoderOptions) (graphText : String)
    (source : AudioSource) :
    Argument.flag "-an" ∈ readArguments (argumentsOf files options graphText (sentPads source)
      (source != .none)) ↔ source = .none := by
  cases source <;>
    simp [argumentsOf, mapArguments, sentPads, soundArguments, readArguments, flags]

/-- No program fails at its graph. When there is one, its graph is laid out by the sound that is
chosen and the clips that have sound; every pad connects one chain with a later one or with the
output; and the arguments send the picture and the sound, or mute the output. -/
theorem compile_layout (config : EditConfig) (files : Files) (hook demo : Clip)
    (text : Option String) (options : EncoderOptions) :
    match compile config files hook demo text options with
    | .error e => ∀ f, e ≠ .graph f
    | .ok p => ∃ a, assemble config hook demo text options.fonts = .ok a ∧
        a.graph.text = .ok p.graphText ∧
        a.graph.chains.map Chain.wiring = layout config.audioSource hook.hasAudio demo.hasAudio ∧
        a.graph.Linked ∧
        (readArguments p.arguments).filterMap Argument.sent? =
          some "[outv]" :: (if config.audioSource = .none then [] else [some "[outa]"]) ∧
        (.flag "-an" ∈ readArguments p.arguments ↔ config.audioSource = .none) := by
  obtain ⟨counters, assembled⟩ := assemble_eq config hook demo text options.fonts
  rw [compile_eq]
  cases made : parts config hook demo text options.fonts with
  | error e => exact parts_ne_graph made
  | ok p =>
      have wellFormed := p.wellFormed config hook demo counters
      rw [made] at assembled
      cases written : options.quality.isWritable with
      | false => simp
      | true =>
          simp only [Outcome.ok_bind, if_true]
          exact ⟨_, assembled, text_eq_of_wellFormed wellFormed, p.chains_wiring config hook demo,
            wellFormed.linked, sent_readArguments .., mute_mem_readArguments ..⟩

end Program
end Splice
