import Splice.Proofs.Program.Expressions

/-! # One timing for all generators

The start and the length of each clip are written in many places of a graph: where its picture and
its sound are cut, where silence or a text ends, and in the expressions of its effect. All of them say
the same, so that picture, sound and text stay together.
-/

namespace Splice

namespace Program

open FilterGraph

/-! ## What the generators write -/

/-- A window as it is written into a filter. -/
def windowOptions (start duration : Binary64) : List (String × String) :=
  [("start", start.fixed 3), ("duration", duration.fixed 3)]

def lengthOptions (duration : Binary64) : List (String × String) :=
  [("duration", duration.fixed 3)]

section Generators

variable {name : String}

theorem tidy_number {own : String} (h : Avoids ('=' :: Overlay.marks) own) (places : Nat)
    (x : Binary64) : Overlay.DrawOption.Tidy { name := own, value := x.fixed places } :=
  .of_value h (Binary64.avoids_fixed (by decide) places x)

/-- A filter that cuts a window out of a picture or a sound. -/
theorem optionsNamed_cut (own : String) (plain : Avoids ('=' :: Overlay.marks) own)
    (start duration : Binary64) :
    optionsNamed name (filtersOf (own ++ "=start=" ++ start.fixed 3 ++ ":duration=" ++
      duration.fixed 3)) = if own = name then [some (windowOptions start duration)] else [] := by
  let os : List Overlay.DrawOption := [{ name := "start", value := start.fixed 3 },
    { name := "duration", value := duration.fixed 3 }]
  have tidy : ∀ o ∈ os, o.Tidy := by
    simp only [os, List.forall_mem_cons]
    exact ⟨tidy_number (by decide) 3 start, tidy_number (by decide) 3 duration, by simp⟩
  have text : own ++ "=start=" ++ start.fixed 3 ++ ":duration=" ++ duration.fixed 3 =
      own ++ "=" ++ ":".intercalate (os.map Overlay.DrawOption.text) := by
    apply String.toList_injective
    simp [os, Overlay.DrawOption.text]
  rw [text]
  exact optionsNamed_options name own plain (by simp [os]) tidy

theorem optionsNamed_length (own : String) (plain : Avoids ('=' :: Overlay.marks) own)
    (duration : Binary64) :
    optionsNamed name (filtersOf (own ++ "=duration=" ++ duration.fixed 3)) =
      if own = name then [some (lengthOptions duration)] else [] := by
  let os : List Overlay.DrawOption := [{ name := "duration", value := duration.fixed 3 }]
  have tidy : ∀ o ∈ os, o.Tidy := by
    simpa [os] using tidy_number (by decide) 3 duration
  have text : own ++ "=duration=" ++ duration.fixed 3 =
      own ++ "=" ++ ":".intercalate (os.map Overlay.DrawOption.text) := by
    apply String.toList_injective
    simp [os, Overlay.DrawOption.text]
  rw [text]
  exact optionsNamed_options name own plain (by simp [os]) tidy

theorem optionsIn_normalize (start duration : Binary64) (trimmed : Bool)
    (other : name ∉ ["setpts", "scale", "pad", "setsar", "fps"]) :
    optionsIn name (normalize start duration trimmed) =
      if trimmed ∧ "trim" = name then [some (windowOptions start duration)] else [] := by
  simp only [List.mem_cons, List.not_mem_nil, or_false, not_or, ← ne_eq] at other
  obtain ⟨setpts, scale, pad, setsar, fps⟩ := other
  have trim : optionsNamed name (filtersOf ("trim=start=" ++ start.fixed 3 ++ ":duration=" ++
      duration.fixed 3)) = _ := optionsNamed_cut "trim" (by decide) start duration
  have reset := optionsNamed_other name "setpts" (f := "setpts=PTS-STARTPTS") (by decide)
    (by decide) (by decide) setpts.symm
  have scaled := optionsNamed_other name "scale" (f := "scale=" ++ CameraEffect.frameSize ":" ++
    ":force_original_aspect_ratio=decrease") (by decide) (by decide) (by decide) scale.symm
  have padded := optionsNamed_other name "pad" (f := "pad=" ++ CameraEffect.frameSize ":" ++
    ":(ow-iw)/2:(oh-ih)/2:black") (by decide) (by decide) (by decide) pad.symm
  have square := optionsNamed_other name "setsar" (f := "setsar=1") (by decide) (by decide)
    (by decide) setsar.symm
  have rate := optionsNamed_other name "fps" (f := "fps=" ++ toString Timing.framesPerSecond)
    (by decide) (by decide) (by decide) fps.symm
  simp only [normalize, optionsIn_append, optionsIn_cons, optionsIn_nil, scaled, padded, square,
    rate, List.append_nil]
  cases trimmed <;> simp [trim, reset]

/-! ### The text -/

theorem isShown_iff {text : Option String} : Overlay.isShown text = true ↔ Overlay.Shown text := by
  cases text with
  | none => simp [Overlay.isShown, Overlay.Shown]
  | some s => simp [Overlay.isShown, Overlay.Shown, Text.isBlankText]

theorem lookup_enable (text : String) (style : TextStyle) (color : Color)
    (position : Option TextPosition) (hookDuration : Binary64) (fonts : Overlay.Fonts) :
    ((Overlay.options text style color position hookDuration fonts).map
      fun o => (o.name, o.value)).lookup "enable" =
        some ("between(t,0," ++ hookDuration.fixed 3 ++ ")") := by
  have font : ("enable" == (Overlay.fontOption style fonts).name) = false := by
    rw [Overlay.fontOption]
    split <;> rfl
  cases background : style.background <;>
    simp [Overlay.options, Overlay.boxOptions, List.lookup_cons, background, font]

/-- A text makes one drawing filter if it has anything to show, which ends with the hook. -/
theorem optionsIn_overlay {text : Option String} {style : Option TextStyle}
    {position : Option TextPosition} {hookDuration : Binary64} {fonts : Overlay.Fonts}
    {overlay : String}
    (h : Overlay.filter text style position hookDuration fonts = .ok overlay) :
    ∃ options, options.lookup "enable" = some ("between(t,0," ++ hookDuration.fixed 3 ++ ")") ∧
      optionsIn name (if overlay.isEmpty then [] else [overlay]) =
        if Overlay.isShown text ∧ "drawtext" = name then [some options] else [] := by
  by_cases shown : Overlay.Shown text
  · obtain ⟨s, rfl, visible⟩ := shown
    rw [Overlay.filter_of_shown rfl visible] at h
    obtain ⟨color, -, rfl⟩ := Outcome.map_eq_ok.mp h
    let os := Overlay.options s (style.getD {}) color position hookDuration fonts
    have drawn : optionsNamed name (filtersOf ("drawtext=" ++
        ":".intercalate (os.map Overlay.DrawOption.text))) = _ :=
      optionsNamed_options name "drawtext" (by decide) (by simp [os, Overlay.options])
        (Overlay.options_tidy s _ color position hookDuration fonts)
    have shown : Overlay.isShown (some s) = true := isShown_iff.mpr ⟨s, rfl, visible⟩
    refine ⟨os.map fun o => (o.name, o.value), lookup_enable .., ?_⟩
    simp [drawn, shown, os]
  · rw [Overlay.filter_of_not_shown shown] at h
    obtain rfl := Except.ok.inj h
    refine ⟨[("enable", "between(t,0," ++ hookDuration.fixed 3 ++ ")")], by simp, ?_⟩
    have hidden : Overlay.isShown text = false := by
      rw [← Bool.not_eq_true, isShown_iff]
      exact shown
    simp [hidden]

/-! ### Pictures, sounds and their blend -/

theorem optionsIn_picture (start duration : Binary64) (trimmed : Bool) (effect overlay : String) :
    optionsIn name (pictureFilters start duration trimmed effect overlay) =
      optionsIn name (normalize start duration trimmed) ++ optionsIn name (effectFilters effect) ++
        optionsIn name (if overlay.isEmpty then [] else [overlay]) := by
  simp [pictureFilters, effectFilters]

/-- A sound is cut like its picture; silence only has a length. -/
theorem optionsIn_clipFilters (hasAudio : Bool) (start duration : Binary64)
    (other : name ∉ ["asetpts", "aformat", "anullsrc"]) :
    optionsIn name (Soundtrack.clipFilters hasAudio start duration) =
      if "atrim" = name then
        [some (if hasAudio then windowOptions start duration else lengthOptions duration)]
      else [] := by
  simp only [List.mem_cons, List.not_mem_nil, or_false, not_or, ← ne_eq] at other
  obtain ⟨asetpts, aformat, anullsrc⟩ := other
  have cut : optionsNamed name (filtersOf ("atrim=start=" ++ start.fixed 3 ++ ":duration=" ++
      duration.fixed 3)) = _ := optionsNamed_cut "atrim" (by decide) start duration
  have length : optionsNamed name (filtersOf ("atrim=duration=" ++ duration.fixed 3)) = _ :=
    optionsNamed_length "atrim" (by decide) duration
  have reset := optionsNamed_other name "asetpts" (f := "asetpts=PTS-STARTPTS")
    (by decide) (by decide) (by decide) asetpts.symm
  have format := optionsNamed_other name "aformat" (f := Soundtrack.format)
    (by decide) (by decide) (by decide) aformat.symm
  have silence := optionsNamed_other name "anullsrc" (f := Soundtrack.silence)
    (by decide) (by decide) (by decide) anullsrc.symm
  cases hasAudio <;> simp [Soundtrack.clipFilters, cut, length, reset, format, silence]

/-- A blend as it is written into a filter; a hard cut has none. -/
def blendOptions : Option Blend → List (Option (List (String × String)))
  | some b => [some [("transition", b.kind), ("duration", b.duration.fixed 3),
      ("offset", b.offset.fixed 3)]]
  | none => []

theorem optionsIn_joinFilter (transition : Option Transition) (hookDuration : Binary64)
    (other : name ≠ "concat") :
    optionsIn name [joinFilter (Blend.plan? transition hookDuration)] =
      if "xfade" = name then blendOptions (Blend.plan? transition hookDuration) else [] := by
  cases planned : Blend.plan? transition hookDuration with
  | none =>
      have cut := optionsNamed_other name "concat" (f := "concat=n=2:v=1:a=0")
        (by decide) (by decide) (by decide) other.symm
      simp [joinFilter, cut, blendOptions]
  | some b =>
      let os : List Overlay.DrawOption := [{ name := "transition", value := b.kind },
        { name := "duration", value := b.duration.fixed 3 },
        { name := "offset", value := b.offset.fixed 3 }]
      have tidy : ∀ o ∈ os, o.Tidy := by
        simp only [os, List.forall_mem_cons]
        exact ⟨.of_value (by decide) (plan?_avoids planned), tidy_number (by decide) 3 b.duration,
          tidy_number (by decide) 3 b.offset, by simp⟩
      have text : joinFilter (some b) =
          "xfade" ++ "=" ++ ":".intercalate (os.map Overlay.DrawOption.text) := by
        unfold joinFilter Blend.filter
        generalize b.duration.fixed 3 = length, b.offset.fixed 3 = offset at os
        apply String.toList_injective
        simp [os, Overlay.DrawOption.text]
      rw [text, optionsIn_cons, optionsNamed_options name "xfade" (by decide) (by simp [os]) tidy,
        optionsIn_nil, List.append_nil]
      rfl

end Generators

/-! ## Both sides -/

/-- The clip at the start of a program and the one at its end. -/
inductive Side where
  | hook
  | demo
  deriving DecidableEq

namespace Side

def trim (config : EditConfig) : Side → Option Trim
  | .hook => config.hookTrim
  | .demo => config.demoTrim

def effect (config : EditConfig) : Side → Option Effect
  | .hook => config.hookEffect
  | .demo => config.demoEffect

def clip (hook demo : Clip) : Side → Clip
  | .hook => hook
  | .demo => demo

def start (t : Timing) : Side → Binary64
  | .hook => t.hookStart
  | .demo => t.demoStart

def duration (t : Timing) : Side → Binary64
  | .hook => t.hookDuration
  | .demo => t.demoDuration

/-- The number of the engine's input that a side is. -/
def input : Side → String
  | .hook => "0"
  | .demo => "1"

def picturePad : Side → String
  | .hook => "v0"
  | .demo => "v1"

/-- The pad of a side's sound, if it is heard. -/
def soundPad? : AudioSource → Side → Option String
  | .hook, .hook => some "a0"
  | .both, .hook => some "a0"
  | .demo, .demo => some "a0"
  | .both, .demo => some "a1"
  | _, _ => none

end Side

/-- The chain that writes a pad. -/
def chainOf? (chains : List Chain) (pad : String) : Option Chain :=
  chains.find? (·.outputs == [pad])

/-- All that a graph says of the window of one side, and that it says the same everywhere. -/
structure Side.InStep (s : Side) (config : EditConfig) (hook demo : Clip) (text : Option String)
    (t : Timing) (chains : List Chain) : Prop where
  picture : (chainOf? chains s.picturePad).map (fun c => (c.inputs, c.optionsNamed "trim")) =
    some ([s.input ++ ":v"],
      if isTrimmed (s.trim config) then [some (windowOptions (s.start t) (s.duration t))] else [])
  sound : ∀ pad, Side.soundPad? config.audioSource s = some pad →
    (chainOf? chains pad).map (fun c => (c.inputs, c.optionsNamed "atrim")) =
      some (if (s.clip hook demo).hasAudio then
          ([s.input ++ ":a"], [some (windowOptions (s.start t) (s.duration t))])
        else ([], [some (lengthOptions (s.duration t))]))
  whole : isTrimmed (s.trim config) = false → (s.start t).fixed 3 = "0.000" ∧
    (s.duration t).fixed 3 = (s.clip hook demo).duration.fixed 3
  effect : ∃ n, Timing.frameCount (s.duration t) = .ok n ∧
    (chainOf? chains s.picturePad).map
        (fun c => (c.optionsNamed "zoompan").map (Option.map measures)) =
      some ((pace (s.effect config) n).map some)
  text : (chainOf? chains s.picturePad).map
      (fun c => (c.optionsNamed "drawtext").map (·.bind (·.lookup "enable"))) =
    some (if s = .hook ∧ Overlay.isShown text then
      [some ("between(t,0," ++ (s.duration t).fixed 3 ++ ")")] else [])

theorem chainOf?_unquoted (chains : List Chain) (pad : String) :
    chainOf? (chains.map Chain.unquoted) pad = (chainOf? chains pad).map Chain.unquoted := by
  rw [chainOf?, List.find?_map]
  rfl

theorem window_of_not_trimmed {trim : Option Trim} {probed start duration : Binary64}
    {side : String} (h : Timing.window trim probed side = .ok (start, duration))
    (whole : isTrimmed trim = false) : start = 0 ∧ duration = probed := by
  have none : trim.bind Trim.window? = none := by
    cases trim with
    | none => rfl
    | some t => simpa [isTrimmed, Trim.active] using whole
  simp only [Timing.window, none] at h
  split at h
  · contradiction
  · obtain ⟨rfl, rfl⟩ := Prod.mk.inj (Except.ok.inj h)
    exact ⟨rfl, rfl⟩

theorem resolve_of_not_trimmed {config : EditConfig} {hook demo : Clip} {t : Timing}
    (h : Timing.resolve config.hookTrim config.demoTrim hook.duration demo.duration = .ok t)
    (s : Side) (whole : isTrimmed (s.trim config) = false) :
    s.start t = 0 ∧ s.duration t = (s.clip hook demo).duration := by
  simp only [Timing.resolve, Outcome.bind_eq_ok, Outcome.pure_eq] at h
  obtain ⟨⟨hookStart, hookDuration⟩, first, ⟨demoStart, demoDuration⟩, second, made⟩ := h
  obtain rfl := Except.ok.inj made
  cases s with
  | hook => exact window_of_not_trimmed first whole
  | demo => exact window_of_not_trimmed second whole

namespace Parts

variable {p : Parts} {config : EditConfig} {hook demo : Clip} {text : Option String}
  {fonts : Overlay.Fonts}

def effect (p : Parts) : Side → String
  | .hook => p.hookEffect
  | .demo => p.demoEffect

/-- The text is drawn over the hook only. -/
def overlayOf (p : Parts) : Side → String
  | .hook => p.overlay
  | .demo => ""

theorem effect_of_parts (h : parts config hook demo text fonts = .ok p) (s : Side) :
    ∃ n, Timing.frameCount (s.duration p.timing) = .ok n ∧
      CameraEffect.filter (s.effect config) n = .ok (p.effect s) := by
  simp only [parts, Outcome.bind_eq_ok, because_eq_ok, Outcome.pure_eq] at h
  obtain ⟨t, -, overlay, -, hookFrames, hf, hookEffect, he, demoFrames, df, demoEffect, de, combine,
    -, made⟩ := h
  obtain rfl := Except.ok.inj made
  cases s with
  | hook => exact ⟨hookFrames, hf, he⟩
  | demo => exact ⟨demoFrames, df, de⟩

theorem timing_of_parts (h : parts config hook demo text fonts = .ok p) :
    Timing.resolve config.hookTrim config.demoTrim hook.duration demo.duration = .ok p.timing ∧
      Overlay.filter text config.textStyle config.textPosition p.timing.hookDuration fonts =
        .ok p.overlay := by
  simp only [parts, Outcome.bind_eq_ok, because_eq_ok, Outcome.pure_eq] at h
  obtain ⟨t, resolved, overlay, drawn, _, -, _, -, _, -, _, -, _, -, made⟩ := h
  obtain rfl := Except.ok.inj made
  exact ⟨resolved, drawn⟩

/-- The chain of a side's picture. -/
theorem chainOf?_picture (s : Side) :
    chainOf? (p.hookChain config :: p.laterChains config hook demo) s.picturePad =
      some ⟨[s.input ++ ":v"], pictureFilters (s.start p.timing) (s.duration p.timing)
        (isTrimmed (s.trim config)) (p.effect s) (p.overlayOf s), [s.picturePad]⟩ := by
  cases s <;> rfl

/-- The chain of a side's sound. -/
theorem chainOf?_sound {s : Side} {pad : String}
    (h : Side.soundPad? config.audioSource s = some pad) :
    chainOf? (p.hookChain config :: p.laterChains config hook demo) pad =
      some (Soundtrack.clipChain (s.input ++ ":a") (s.clip hook demo).hasAudio (s.start p.timing)
        (s.duration p.timing) pad) := by
  generalize source : config.audioSource = a at h
  cases s <;> cases a <;> simp only [Side.soundPad?, Option.some.injEq, reduceCtorEq] at h
  all_goals
    obtain rfl := h
    simp only [laterChains, source, Soundtrack.clipChains]
    rfl

/-- The options of a side's picture are those of its cut, its effect and its text. -/
theorem picture_found (p : Parts) (config : EditConfig) (hook demo : Clip) (s : Side) :
    ∃ c, chainOf? ((p.hookChain config :: p.laterChains config hook demo).map Chain.unquoted)
        s.picturePad = some c ∧ c.inputs = [s.input ++ ":v"] ∧
      ∀ name ∉ ["setpts", "scale", "pad", "setsar", "fps"], c.optionsNamed name =
        (if isTrimmed (s.trim config) ∧ "trim" = name then
          [some (windowOptions (s.start p.timing) (s.duration p.timing))] else []) ++
        optionsIn name (effectFilters (p.effect s)) ++
        optionsIn name (if (p.overlayOf s).isEmpty then [] else [p.overlayOf s]) := by
  refine ⟨_, by rw [chainOf?_unquoted, chainOf?_picture, Option.map_some], rfl, ?_⟩
  intro name other
  rw [Chain.optionsNamed_unquoted, optionsIn_picture, optionsIn_normalize _ _ _ other]

/-- The text of a side's picture, if it has one. -/
theorem overlay_options (h : parts config hook demo text fonts = .ok p) (s : Side) (name : String) :
    ∃ options,
      options.lookup "enable" = some ("between(t,0," ++ (s.duration p.timing).fixed 3 ++ ")") ∧
      optionsIn name (if (p.overlayOf s).isEmpty then [] else [p.overlayOf s]) =
        if (s = .hook ∧ Overlay.isShown text) ∧ "drawtext" = name then [some options] else [] := by
  cases s with
  | hook => simpa [overlayOf, Side.duration] using optionsIn_overlay (timing_of_parts h).2
  | demo => exact ⟨[("enable", _)], rfl, by simp [overlayOf]⟩

theorem inStep (h : parts config hook demo text fonts = .ok p) (s : Side) :
    s.InStep config hook demo text p.timing
      ((p.hookChain config :: p.laterChains config hook demo).map Chain.unquoted) := by
  obtain ⟨n, counted, made⟩ := effect_of_parts h s
  obtain ⟨noOther, paced⟩ := optionsIn_effect made
  obtain ⟨c, found, inputs, options⟩ := picture_found p config hook demo s
  refine ⟨?_, fun pad heard => ?_, fun untrimmed => ?_, ⟨n, counted, ?_⟩, ?_⟩
  · obtain ⟨_, -, overlay⟩ := overlay_options h s "trim"
    rw [found, Option.map_some, inputs, options "trim" (by decide), noOther "trim" (by decide),
      overlay]
    simp
  · rw [chainOf?_unquoted, chainOf?_sound heard, Option.map_map, Option.map_some,
      Function.comp_apply, Chain.optionsNamed_unquoted]
    simp only [Soundtrack.clipChain, Chain.unquoted]
    rw [optionsIn_clipFilters _ _ _ (by decide), if_pos rfl]
    split <;> rfl
  · have zero : (0 : Binary64).fixed 3 = "0.000" := by decide +kernel
    obtain ⟨start, duration⟩ := resolve_of_not_trimmed (timing_of_parts h).1 s untrimmed
    rw [start, duration, zero]
    exact ⟨rfl, rfl⟩
  · obtain ⟨_, -, overlay⟩ := overlay_options h s "zoompan"
    rw [found, Option.map_some, options "zoompan" (by decide), overlay]
    simpa using paced
  · obtain ⟨shown, enabled, overlay⟩ := overlay_options h s "drawtext"
    rw [found, Option.map_some, options "drawtext" (by decide), noOther "drawtext" (by decide),
      overlay]
    by_cases visible : s = .hook ∧ Overlay.isShown text = true
    · simp [visible, enabled]
    · simp [visible]

/-- The chain that joins the pictures. -/
theorem chainOf?_join (p : Parts) (config : EditConfig) (hook demo : Clip) :
    chainOf? (p.hookChain config :: p.laterChains config hook demo) outputVideo =
      some ⟨["v0", "v1"], [joinFilter (p.blend config)], [outputVideo]⟩ := by
  generalize source : config.audioSource = a
  cases a
  all_goals
    simp only [laterChains, source, Soundtrack.clipChains]
    rfl

end Parts

/-- The graph of a program, as it is read, says one thing of each clip: the picture is cut exactly if
its trim is in force, at the start and the length of the timing; the sound that is heard is cut at the
same texts, and silence in its place lasts as long; without a trim both say the whole clip; effects go
by the frames of that length, and the text disappears with the hook. The pictures are joined as the
blend says, and the length that is expected is that of what is joined. -/
theorem compile_inStep {config : EditConfig} {files : Files} {hook demo : Clip}
    {text : Option String} {options : EncoderOptions} {p : Program}
    (h : compile config files hook demo text options = .ok p) :
    ∃ chains, read? p.graphText = some chains ∧
      (∀ s : Side, s.InStep config hook demo text p.timing chains) ∧
      (chainOf? chains outputVideo).map (·.optionsNamed "xfade") = some (blendOptions p.blend) ∧
      p.expectedDuration = match p.blend with
        | some b => b.offset + p.timing.demoDuration
        | none => p.timing.hookDuration + p.timing.demoDuration := by
  obtain ⟨r, made, -, rfl⟩ := compile_eq_ok.mp h
  have readable := (parts_legible made).readable hook demo
  refine ⟨_, read?_intercalate (by simp) readable, fun s => r.inStep made s, ?_, ?_⟩
  · rw [chainOf?_unquoted, r.chainOf?_join, Option.map_some, Option.map_some,
      Chain.optionsNamed_unquoted]
    exact congrArg some ((optionsIn_joinFilter _ _ (by decide)).trans (if_pos rfl))
  · simp only [Parts.program]
    cases r.blend config <;> rfl

/-- A cut hook without sound, and a demo whose trim is not in force. -/
def strayTrim : EditConfig where
  hookTrim := some ⟨2, some 7, false⟩
  demoTrim := some ⟨4, some 6, true⟩
  transition := some ⟨"zoom-cut", 500⟩
  hookEffect := some ⟨"punch-zoom", "strong"⟩
  demoEffect := some ⟨"vertical-pan", "medium"⟩

theorem compile_inStep_stray : ∃ p chains,
    compile strayTrim ⟨"h", "d", "o"⟩ ⟨12, false⟩ ⟨8, true⟩ (some "it's") {} = .ok p ∧
      read? p.graphText = some chains ∧
      (∀ s : Side, s.InStep strayTrim ⟨12, false⟩ ⟨8, true⟩ (some "it's") p.timing chains) ∧
      (chainOf? chains "a0").map (·.optionsNamed "atrim") = some [some [("duration", "5.000")]] ∧
      (chainOf? chains "v1").map (·.optionsNamed "trim") = some [] := by
  have succeeds : (compile strayTrim ⟨"h", "d", "o"⟩ ⟨12, false⟩ ⟨8, true⟩ (some "it's")
      {}).toOption.map (fun p => p.timing.hookDuration.fixed 3) = some "5.000" := by decide +kernel
  cases compiled : compile strayTrim ⟨"h", "d", "o"⟩ ⟨12, false⟩ ⟨8, true⟩ (some "it's") {} with
  | error e =>
      rw [compiled] at succeeds
      contradiction
  | ok p =>
      rw [compiled] at succeeds
      have length : p.timing.hookDuration.fixed 3 = "5.000" := Option.some.inj succeeds
      obtain ⟨chains, read, inStep, -⟩ := compile_inStep compiled
      have silence := congrArg (Option.map Prod.snd) ((inStep .hook).sound "a0" rfl)
      have uncut := congrArg (Option.map Prod.snd) (inStep .demo).picture
      rw [Option.map_map] at silence uncut
      refine ⟨p, chains, rfl, read, inStep, silence.trans ?_, uncut⟩
      show some [some [("duration", p.timing.hookDuration.fixed 3)]] = _
      rw [length]

end Program
end Splice
