import Splice.Proofs.Binary64.Places
import Splice.Proofs.EditConfig.Checked
import Splice.Proofs.Program.Windows

/-! # Lengths that are written

Three kinds of filters say how long something lasts: the cut of a picture, the cut of a sound, and the
blend. All that they say are the windows and the blend of the program, which are positive, with three
places; what is at most half a millisecond is written as zero.
-/

namespace Splice

namespace Program

open FilterGraph

/-- The names of the filters that say how long something lasts. -/
def lastingNames : List String := ["trim", "atrim", "xfade"]

/-- The lengths of a program: its windows, and its blend if it has one. -/
def lengths (t : Timing) (blend : Option Blend) : List Binary64 :=
  t.hookDuration :: t.demoDuration :: blend.toList.map Blend.duration

/-- Options in which one duration is given, one of some lengths with three places. -/
def Lasts (lengths : List Binary64) (found : Option (List (String × String))) : Prop :=
  ∃ options, found = some options ∧ ∃ d ∈ lengths,
    options.filter (·.1 == "duration") = [("duration", d.fixed 3)]

section

variable {name : String} {ds : List Binary64} {d : Binary64}

theorem lasts_window (mem : d ∈ ds) (start : Binary64) : Lasts ds (some (windowOptions start d)) :=
  ⟨_, rfl, d, mem, rfl⟩

theorem lasts_length (mem : d ∈ ds) : Lasts ds (some (lengthOptions d)) := ⟨_, rfl, d, mem, rfl⟩

/-! ## The chains -/

theorem plain_of_lasting (lasting : name ∈ lastingNames) :
    name ∉ ["setpts", "scale", "pad", "setsar", "fps"] ∧ name ∉ effectNames ∧
      name ∉ ["asetpts", "aformat", "anullsrc"] ∧ name ∉ ["apad", "adelay", "concat", "drawtext"] := by
  have each : ∀ name ∈ lastingNames, name ∉ ["setpts", "scale", "pad", "setsar", "fps"] ∧
      name ∉ effectNames ∧ name ∉ ["asetpts", "aformat", "anullsrc"] ∧
        name ∉ ["apad", "adelay", "concat", "drawtext"] := by
    decide
  exact each name lasting

theorem lasts_picture {start duration : Binary64} {trimmed : Bool} {e : Option Effect} {frames : Int}
    {effect overlay : String} (lasting : name ∈ lastingNames) (mem : duration ∈ ds)
    (made : CameraEffect.filter e frames = .ok effect)
    (drawn : optionsIn name (if overlay.isEmpty then [] else [overlay]) = []) :
    ∀ o ∈ optionsIn name (pictureFilters start duration trimmed effect overlay), Lasts ds o := by
  obtain ⟨plain, noEffect, -⟩ := plain_of_lasting lasting
  rw [optionsIn_picture, optionsIn_normalize _ _ _ plain, (optionsIn_effect made).1 name noEffect, drawn]
  intro o found
  split at found
  · obtain rfl : o = some (windowOptions start duration) := by simpa using found
    exact lasts_window mem start
  · simp at found

theorem lasts_clip {start duration : Binary64} {hasAudio : Bool} (lasting : name ∈ lastingNames)
    (mem : duration ∈ ds) :
    ∀ o ∈ optionsIn name (Soundtrack.clipFilters hasAudio start duration), Lasts ds o := by
  obtain ⟨-, -, plain, -⟩ := plain_of_lasting lasting
  rw [optionsIn_clipFilters _ _ _ plain]
  intro o found
  split at found
  · obtain rfl := List.mem_singleton.mp found
    split
    · exact lasts_window mem start
    · exact lasts_length mem
  · cases found

theorem lasts_join {transition : Option Transition} {hookDuration : Binary64}
    (lasting : name ∈ lastingNames)
    (mem : ∀ b, Blend.plan? transition hookDuration = some b → b.duration ∈ ds) :
    ∀ o ∈ optionsIn name [joinFilter (Blend.plan? transition hookDuration)], Lasts ds o := by
  obtain ⟨-, -, -, plain⟩ := plain_of_lasting lasting
  rw [optionsIn_joinFilter _ _ fun is => plain (by simp [is])]
  intro o found
  split at found
  · cases planned : Blend.plan? transition hookDuration with
    | none => simp [planned, blendOptions] at found
    | some b =>
        obtain rfl : o = some [("transition", b.kind), ("duration", b.duration.fixed 3),
            ("offset", b.offset.fixed 3)] := by simpa [planned, blendOptions] using found
        exact ⟨_, rfl, b.duration, mem b planned, rfl⟩
  · cases found

/-- What puts the sound together has a name of its own. -/
theorem filterName_combine {source : AudioSource} {t : Timing} {filter : String}
    (h : Soundtrack.combineFilter source t = .ok filter) :
    ∃ own ∈ ["apad", "adelay", "concat"], filterName filter = own.toList := by
  cases source with
  | hook =>
      obtain rfl := Except.ok.inj h
      refine ⟨"apad", by simp, ?_⟩
      rw [filterName, String.toList_append]
      rfl
  | demo =>
      obtain ⟨delay, -, rfl⟩ := Outcome.map_eq_ok.mp h
      refine ⟨"adelay", by simp, ?_⟩
      rw [filterName, String.toList_append, String.toList_append, String.toList_append]
      rfl
  | both | none =>
      obtain rfl := Except.ok.inj h
      exact ⟨"concat", by simp, by decide⟩

theorem optionsIn_combine {source : AudioSource} {t : Timing} {filter : String}
    (h : Soundtrack.combineFilter source t = .ok filter)
    (other : name ∉ ["apad", "adelay", "concat"]) : optionsIn name [filter] = [] := by
  obtain ⟨own, known, named⟩ := filterName_combine h
  have different : (filterName filter == name.toList) = false := by
    rw [named, beq_eq_false_iff_ne]
    exact fun same => other (String.toList_injective same ▸ known)
  rw [optionsIn_cons, (combineFilter_read h).reads, optionsNamed, List.filter_singleton, different]
  rfl

end

theorem mem_clipChains {source : AudioSource} {hookHasAudio demoHasAudio : Bool} {t : Timing} {c : Chain}
    (h : c ∈ Soundtrack.clipChains source hookHasAudio demoHasAudio t) :
    ∃ (s : Side) (stream : String) (hasAudio : Bool) (pad : String),
      c = Soundtrack.clipChain stream hasAudio (s.start t) (s.duration t) pad := by
  cases source with
  | none => cases h
  | hook => exact ⟨.hook, _, _, _, List.mem_singleton.mp h⟩
  | demo => exact ⟨.demo, _, _, _, List.mem_singleton.mp h⟩
  | both =>
      rcases List.mem_cons.mp h with rfl | h
      · exact ⟨.hook, _, _, _, rfl⟩
      · exact ⟨.demo, _, _, _, List.mem_singleton.mp h⟩

theorem Side.duration_mem_lengths (s : Side) (t : Timing) (blend : Option Blend) :
    s.duration t ∈ lengths t blend := by
  cases s with
  | hook => exact List.mem_cons_self
  | demo => exact List.mem_cons_of_mem _ List.mem_cons_self

theorem Parts.combine_of_parts {p : Parts} {config : EditConfig} {hook demo : Clip}
    {text : Option String} {fonts : Overlay.Fonts} (h : parts config hook demo text fonts = .ok p)
    (heard : config.audioSource ≠ .none) :
    Soundtrack.combineFilter config.audioSource p.timing = .ok p.combine := by
  simp only [parts, Outcome.bind_eq_ok, because_eq_ok, Outcome.pure_eq] at h
  obtain ⟨t, -, overlay, -, _, -, _, -, _, -, _, -, combine, combined, made⟩ := h
  obtain rfl := Except.ok.inj made
  rwa [combinePart, if_neg heard, because_eq_ok] at combined

/-- Every length in a graph is one of the program. -/
theorem Parts.lasts {p : Parts} {config : EditConfig} {hook demo : Clip} {text : Option String}
    {fonts : Overlay.Fonts} (h : parts config hook demo text fonts = .ok p) {name : String}
    (lasting : name ∈ lastingNames) :
    ∀ c ∈ p.hookChain config :: p.laterChains config hook demo, ∀ o ∈ optionsIn name c.filters,
      Lasts (lengths p.timing (p.blend config)) o := by
  have window (s : Side) := s.duration_mem_lengths p.timing (p.blend config)
  obtain ⟨plain, -, -, others⟩ := plain_of_lasting lasting
  have picture (s : Side) : ∀ o ∈ optionsIn name (pictureFilters (s.start p.timing)
      (s.duration p.timing) (isTrimmed (s.trim config)) (p.effect s) (p.overlayOf s)),
      Lasts (lengths p.timing (p.blend config)) o := by
    obtain ⟨n, -, made⟩ := effect_of_parts h s
    obtain ⟨_, -, drawn⟩ := overlay_options h s name
    refine lasts_picture lasting (window s) made (drawn.trans (if_neg ?_))
    rintro ⟨-, rfl⟩
    exact others (by simp)
  intro c mem
  simp only [laterChains, List.mem_cons, List.mem_append] at mem
  rcases mem with rfl | rfl | heard | rfl | combined
  · exact picture .hook
  · exact picture .demo
  · obtain ⟨s, stream, hasAudio, pad, rfl⟩ := mem_clipChains heard
    exact lasts_clip lasting (window s)
  · refine lasts_join lasting fun b planned => ?_
    have blend : p.blend config = some b := planned
    simp [lengths, blend]
  · unfold Soundtrack.combineChains at combined
    split at combined
    · cases combined
    · rename_i heard
      obtain rfl := List.mem_singleton.mp combined
      have combine : name ∉ ["apad", "adelay", "concat"] := fun known =>
        others (List.mem_append_left ["drawtext"] known)
      rw [optionsIn_combine (combine_of_parts h heard) combine]
      exact List.forall_mem_nil _

/-! ## The lengths -/

/-- A length whose frames can be counted is a number even when it is taken thirty times. -/
theorem finite_frames_of_frameCount {duration : Binary64} {n : Int}
    (h : Timing.frameCount duration = .ok n) : (duration * 30).isFinite = true := by
  obtain ⟨m, counted, -⟩ := Outcome.map_eq_ok.mp h
  exact Binary64.isFinite_of_toWhole counted

theorem finite_of_frameCount {duration : Binary64} {n : Int}
    (h : Timing.frameCount duration = .ok n) : duration.isFinite = true :=
  Binary64.isFinite_of_mul_ofNat (by decide) (by decide) (finite_frames_of_frameCount h)

theorem not_le_zero_of_window {trim : Option Trim} {probed start duration : Binary64} {side : String}
    (h : Timing.window trim probed side = .ok (start, duration)) : ¬ duration ≤ 0 := by
  have settled {first length : Binary64} (h : (if length ≤ 0 then
      .error (⟨side, first, length, probed⟩ : Timing.EmptyWindow) else .ok (first, length)) =
      Except.ok (start, duration)) : ¬ duration ≤ 0 := by
    split at h
    · cases h
    · rename_i positive
      obtain ⟨-, rfl⟩ := Prod.mk.inj (Except.ok.inj h)
      exact positive
  unfold Timing.window at h
  cases cut : trim.bind Trim.window? with
  | none =>
      rw [cut] at h
      exact settled h
  | some window =>
      rw [cut] at h
      exact settled h

theorem plan?_eq_some_iff {transition : Option Transition} {hookDuration : Binary64} {b : Blend} :
    Blend.plan? transition hookDuration = some b ↔ ∃ t kind, transition = some t ∧
      Blend.engineKind? t.kind = some kind ∧ ¬ t.seconds ≤ 0 ∧
      b = ⟨kind, Blend.length t, Blend.startIn hookDuration (Blend.length t)⟩ := by
  simp only [Blend.plan?, Option.bind_eq_bind, Option.bind_eq_some_iff]
  constructor
  · rintro ⟨t, given, kind, known, made⟩
    split at made
    · cases made
    · exact ⟨t, kind, given, known, ‹_›, (Option.some.inj made).symm⟩
  · rintro ⟨t, kind, given, known, positive, rfl⟩
    exact ⟨t, given, kind, known, if_neg positive⟩

theorem zoomLimit_positive : Blend.zoomLimit.isFinite = true ∧ 0 < Blend.zoomLimit := by
  have decimal : Blend.zoomLimit = Binary64.ofDecimal false 3 (-(1 : Nat)) := rfl
  rw [decimal, Binary64.ofDecimal_pos_iff Nat.one_pos (Binary64.le_unitsPerOne (by decide))]
  exact ⟨Binary64.isFinite_ofDecimal Nat.one_pos false (by decide), by decide⟩

theorem finite_seconds {config : EditConfig} (valid : config.Valid) {t : Transition}
    (given : config.transition = some t) : t.seconds.isFinite = true :=
  Binary64.isFinite_div_ofNat (by decide) (by decide) (valid.transition t given)

theorem blend_positive {config : EditConfig} (valid : config.Valid) {hookDuration : Binary64} {b : Blend}
    (h : Blend.plan? config.transition hookDuration = some b) :
    b.duration.isFinite = true ∧ 0 < b.duration := by
  obtain ⟨t, kind, given, -, positive, rfl⟩ := plan?_eq_some_iff.mp h
  have seconds := finite_seconds valid given
  have positive := (Binary64.zero_lt_iff (Binary64.ne_nan_of_isFinite seconds)).mpr positive
  dsimp only
  unfold Blend.length
  split
  · rw [Binary64.min_eq]
    split
    · exact zoomLimit_positive
    · exact ⟨seconds, positive⟩
  · exact ⟨seconds, positive⟩

theorem Parts.duration_positive {p : Parts} {config : EditConfig} {hook demo : Clip}
    {text : Option String} {fonts : Overlay.Fonts} (h : parts config hook demo text fonts = .ok p)
    (s : Side) : (s.duration p.timing).isFinite = true ∧ 0 < s.duration p.timing := by
  obtain ⟨n, counted, -⟩ := effect_of_parts h s
  have finite := finite_of_frameCount counted
  refine ⟨finite, (Binary64.zero_lt_iff (Binary64.ne_nan_of_isFinite finite)).mpr ?_⟩
  have resolved := (timing_of_parts h).1
  simp only [Timing.resolve, Outcome.bind_eq_ok, Outcome.pure_eq] at resolved
  obtain ⟨⟨hookStart, hookDuration⟩, first, ⟨demoStart, demoDuration⟩, second, made⟩ := resolved
  obtain timing := Except.ok.inj made
  rw [← timing]
  cases s with
  | hook => exact not_le_zero_of_window first
  | demo => exact not_le_zero_of_window second

theorem Parts.lengths_positive {p : Parts} {config : EditConfig} (valid : config.Valid)
    {hook demo : Clip} {text : Option String} {fonts : Overlay.Fonts}
    (h : parts config hook demo text fonts = .ok p) :
    ∀ d ∈ lengths p.timing (p.blend config), d.isFinite = true ∧ 0 < d := by
  intro d mem
  simp only [lengths, List.mem_cons, List.mem_map, Option.mem_toList] at mem
  rcases mem with rfl | rfl | ⟨b, planned, rfl⟩
  · exact duration_positive h .hook
  · exact duration_positive h .demo
  · exact blend_positive valid planned

/-- Whatever a graph, as it is read, says of how long a cut or a blend lasts is a window or the blend of
the program, which is positive, written with three places. It is read as a positive number, unless it is
at most half a millisecond: then it is written as zero. -/
theorem compile_lengths {source : Value} {config : EditConfig}
    (accepted : EditConfig.read source = .ok config) {files : Files} {hook demo : Clip}
    {text : Option String} {options : EncoderOptions} {p : Program}
    (h : compile config files hook demo text options = .ok p) :
    ∃ chains, read? p.graphText = some chains ∧
      ∀ c ∈ chains, ∀ name ∈ ["trim", "atrim", "xfade"], ∀ o ∈ c.optionsNamed name,
        ∃ options d read, o = some options ∧
          options.filter (·.1 == "duration") = [("duration", d.fixed 3)] ∧
          d ∈ lengths p.timing p.blend ∧ 0 < d ∧
          Text.number? (d.fixed 3) = some read ∧ (0 < read ↔ 1 / 2000 < d.value) := by
  obtain ⟨r, made, -, rfl⟩ := compile_eq_ok.mp h
  have readable := (parts_legible made).readable hook demo
  refine ⟨_, read?_intercalate (by simp) readable, fun c mem name lasting o found => ?_⟩
  obtain ⟨whole, among, rfl⟩ := List.mem_map.mp mem
  rw [Chain.optionsNamed_unquoted] at found
  obtain ⟨options, told, d, known, given⟩ := r.lasts made lasting whole among o found
  obtain ⟨finite, positive⟩ := r.lengths_positive (EditConfig.valid_of_read accepted) made d known
  have small : 10 ^ 3 ≤ Binary64.unitsPerOne := Binary64.le_unitsPerOne (by decide)
  obtain ⟨read, back, above⟩ := Binary64.fixed_pos_iff finite positive (by decide : 0 < 3) small
  refine ⟨options, d, read, told, given, known, positive, back, above.trans ?_⟩
  norm_num

/-- A trim of less than half a millisecond. -/
def brief : Value := .mapping [(.text "hook_trim",
  .mapping [(.text "start", .int 0), (.text "end", .float 0.0004)])]

theorem brief_compiles : ∃ config p, EditConfig.read brief = .ok config ∧
    isTrimmed config.hookTrim = true ∧
    compile config ⟨"h", "d", "o"⟩ ⟨5, true⟩ ⟨5, true⟩ none {} = .ok p ∧
    p.timing.hookStart.fixed 3 = "0.000" ∧ p.timing.hookDuration.fixed 3 = "0.000" := by
  have known : ((EditConfig.read brief).toOption.map fun config => (isTrimmed config.hookTrim,
      (compile config ⟨"h", "d", "o"⟩ ⟨5, true⟩ ⟨5, true⟩ none {}).toOption.map fun p =>
        (p.timing.hookStart.fixed 3, p.timing.hookDuration.fixed 3))) =
      some (true, some ("0.000", "0.000")) := by
    decide +kernel
  obtain ⟨config, read, made⟩ := Option.map_eq_some_iff.mp known
  obtain ⟨trimmed, made⟩ := Prod.mk.inj made
  obtain ⟨p, compiled, written⟩ := Option.map_eq_some_iff.mp made
  obtain ⟨start, duration⟩ := Prod.mk.inj written
  exact ⟨config, p, Outcome.eq_ok_of_toOption read, trimmed, Outcome.eq_ok_of_toOption compiled, start,
    duration⟩

theorem compile_lengths_brief : ∃ config p chains, EditConfig.read brief = .ok config ∧
    compile config ⟨"h", "d", "o"⟩ ⟨5, true⟩ ⟨5, true⟩ none {} = .ok p ∧
    read? p.graphText = some chains ∧
    ∀ c ∈ chains, ∀ o ∈ c.optionsNamed "trim", ∃ options, ∃ d : Binary64, o = some options ∧
      options.filter (·.1 == "duration") = [("duration", d.fixed 3)] ∧ 0 < d := by
  obtain ⟨config, p, accepted, -, compiled, -⟩ := brief_compiles
  obtain ⟨chains, read, told⟩ := compile_lengths accepted compiled
  refine ⟨config, p, chains, accepted, compiled, read, fun c mem o found => ?_⟩
  obtain ⟨options, d, _, said, given, -, positive, -⟩ := told c mem "trim" (by simp) o found
  exact ⟨options, d, said, given, positive⟩

/-- The trim is positive, and is written as zero. -/
theorem compile_vanishing : ∃ config p chains c, EditConfig.read brief = .ok config ∧
    compile config ⟨"h", "d", "o"⟩ ⟨5, true⟩ ⟨5, true⟩ none {} = .ok p ∧
    read? p.graphText = some chains ∧ c ∈ chains ∧
    c.optionsNamed "trim" = [some [("start", "0.000"), ("duration", "0.000")]] ∧
    Text.number? "0.000" = some 0 := by
  obtain ⟨config, p, accepted, trimmed, compiled, start, duration⟩ := brief_compiles
  obtain ⟨r, made, -, rfl⟩ := compile_eq_ok.mp compiled
  have readable := (parts_legible made).readable ⟨5, true⟩ ⟨5, true⟩
  have picture := (r.inStep made .hook).picture
  obtain ⟨c, found, said⟩ := Option.map_eq_some_iff.mp picture
  refine ⟨config, _, _, c, accepted, compiled, read?_intercalate (by simp) readable,
    List.mem_of_find?_eq_some found, ?_, by decide +kernel⟩
  have window : windowOptions r.timing.hookStart r.timing.hookDuration =
      [("start", "0.000"), ("duration", "0.000")] := by
    simp only [Parts.program] at start duration
    rw [windowOptions, start, duration]
  rw [(Prod.mk.inj said).2, Side.trim, if_pos trimmed, Side.start, Side.duration, window]

end Program

end Splice
