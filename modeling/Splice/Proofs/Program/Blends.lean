import Splice.Proofs.Binary64.Accuracy
import Splice.Proofs.Program.Lengths

/-! # Blends and the length of the output

A blend is within the hook: it lasts no longer than it is asked to, and starts at the beginning of the
hook where it would start before it. So the output is never shorter than the demo and never longer than
both clips one after the other, and all of this holds of the rounded numbers.
-/

namespace Splice

open Binary64

/-! ## Blends -/

namespace Blend

/-- A blend keeps to its transition and to the hook. -/
structure Suits (b : Blend) (t : Transition) (hookDuration : Binary64) : Prop where
  positive : 0 < b.duration
  short : b.duration ≤ t.seconds
  capped : t.kind = "zoom-cut" → b.duration ≤ 0.3
  starts : 0 ≤ b.offset
  within : b.offset ≤ hookDuration
  whole : hookDuration ≤ b.duration → b.offset = 0

theorem isSome_engineKind? {kind : String} :
    (engineKind? kind).isSome = true ↔ kind ∈ ["crossfade", "push-up", "zoom-cut"] := by
  simp only [engineKind?, List.lookup_cons, List.lookup_nil, List.mem_cons, List.not_mem_nil, or_false]
  repeat' split
  all_goals simp_all

section

variable {t : Transition}

theorem length_le (finite : t.seconds.isFinite = true) : length t ≤ t.seconds := by
  unfold length
  split
  · rw [min_eq]
    split
    · exact Binary64.le_of_lt Program.zoomLimit_positive.1 finite ‹_›
    · exact le_self finite
  · exact le_self finite

theorem length_le_limit (finite : t.seconds.isFinite = true) (zooms : t.kind = "zoom-cut") :
    length t ≤ 0.3 := by
  have limit : (0.3 : Binary64) = zoomLimit := rfl
  have number := Program.zoomLimit_positive.1
  rw [length, if_pos zooms, min_eq, limit]
  split
  · exact le_self number
  · exact (not_lt_iff_le (ne_nan_of_isFinite number) (ne_nan_of_isFinite finite)).mp ‹_›

end

section

variable {hookDuration duration : Binary64}

theorem startIn_of_le (hook : hookDuration.isFinite = true) (finite : duration.isFinite = true)
    (h : hookDuration ≤ duration) : startIn hookDuration duration = 0 := by
  have before := (sub_le_zero_iff finite hook).mpr h
  rw [startIn, max_eq, if_neg]
  exact fun after => not_le_of_lt after before

theorem startIn_of_not_le (hook : hookDuration.isFinite = true) (finite : duration.isFinite = true)
    (h : ¬ hookDuration ≤ duration) : startIn hookDuration duration = hookDuration - duration := by
  have after := (zero_lt_iff (sub_ne_nan finite hook)).mpr (mt (sub_le_zero_iff finite hook).mp h)
  rw [startIn, max_eq, if_pos after]

/-- A blend starts within the hook. -/
theorem startIn_within (hook : hookDuration.isFinite = true) (finite : duration.isFinite = true)
    (some_hook : 0 ≤ hookDuration) (positive : 0 < duration) :
    0 ≤ startIn hookDuration duration ∧ startIn hookDuration duration ≤ hookDuration := by
  by_cases late : hookDuration ≤ duration
  · rw [startIn_of_le hook finite late]
    exact ⟨le_self zero_spec.1, some_hook⟩
  · rw [startIn_of_not_le hook finite late]
    rw [le_iff_value_le hook finite, not_le] at late
    rw [lt_iff_value_lt zero_spec.1 finite, zero_spec.2] at positive
    have difference := isNearest_sub hook finite
    constructor
    · exact (isNearest_value zero_spec.1).mono difference (by rw [zero_spec.2]; linarith)
    · exact difference.mono (isNearest_value hook) (by linarith)

end

end Blend

namespace Program

/-- A blend of a configuration that can be relied on suits its transition. -/
theorem blend_suits {config : EditConfig} (valid : config.Valid) {hookDuration : Binary64}
    (hook : hookDuration.isFinite = true) (some_hook : 0 ≤ hookDuration) {b : Blend}
    (h : Blend.plan? config.transition hookDuration = some b) :
    ∃ t, config.transition = some t ∧ b.Suits t hookDuration := by
  obtain ⟨finite, positive⟩ := blend_positive valid h
  obtain ⟨t, kind, given, -, -, made⟩ := plan?_eq_some_iff.mp h
  have seconds := finite_seconds valid given
  have length : b.duration = Blend.length t := by rw [made]
  have start : b.offset = Blend.startIn hookDuration b.duration := by rw [made]
  obtain ⟨starts, within⟩ := Blend.startIn_within hook finite some_hook positive
  rw [← start] at starts within
  exact ⟨t, given, positive, length ▸ Blend.length_le seconds,
    fun zooms => length ▸ Blend.length_le_limit seconds zooms, starts, within,
    fun late => start.trans (Blend.startIn_of_le hook finite late)⟩

theorem exists_blend_iff {config : EditConfig} (valid : config.Valid) (hookDuration : Binary64) :
    (∃ b, Blend.plan? config.transition hookDuration = some b) ↔ ∃ t, config.transition = some t ∧
      t.kind ∈ ["crossfade", "push-up", "zoom-cut"] ∧ 0 < t.seconds := by
  have number {t : Transition} (given : config.transition = some t) :=
    zero_lt_iff (ne_nan_of_isFinite (finite_seconds valid given))
  constructor
  · rintro ⟨b, planned⟩
    obtain ⟨t, kind, given, known, positive, -⟩ := plan?_eq_some_iff.mp planned
    exact ⟨t, given, Blend.isSome_engineKind?.mp (Option.isSome_of_eq_some known),
      (number given).mpr positive⟩
  · rintro ⟨t, given, kind, positive⟩
    obtain ⟨name, known⟩ := Option.isSome_iff_exists.mp (Blend.isSome_engineKind?.mpr kind)
    exact ⟨_, plan?_eq_some_iff.mpr ⟨t, name, given, known, (number given).mp positive, rfl⟩⟩

/-! ## The length of the output -/

/-- Where the demo starts in the output: where the blend starts, or at the end of the hook. -/
def demoStart (t : Timing) : Option Blend → Binary64
  | some b => b.offset
  | none => t.hookDuration

theorem expectedLength_eq (t : Timing) (blend : Option Blend) :
    expectedLength t blend = demoStart t blend + t.demoDuration := by
  cases blend with
  | none => rfl
  | some b => rfl

theorem Parts.sum_finite {p : Parts} {config : EditConfig} {hook demo : Clip} {text : Option String}
    {fonts : Overlay.Fonts} (h : parts config hook demo text fonts = .ok p) :
    (p.timing.hookDuration + p.timing.demoDuration).isFinite = true := by
  have frames (s : Side) : (s.duration p.timing * 30).isFinite = true := by
    obtain ⟨n, counted, -⟩ := effect_of_parts h s
    exact finite_frames_of_frameCount counted
  obtain ⟨hookFinite, hookPositive⟩ := duration_positive h .hook
  obtain ⟨demoFinite, -⟩ := duration_positive h .demo
  have some_hook := Binary64.le_of_lt zero_spec.1 hookFinite hookPositive
  by_cases longer : p.timing.hookDuration ≤ p.timing.demoDuration
  · exact isFinite_add_of_mul (by decide) (by decide) hookFinite demoFinite demoFinite some_hook longer
      (le_self demoFinite) (frames .demo)
  · have shorter : p.timing.demoDuration ≤ p.timing.hookDuration :=
      Binary64.le_of_lt demoFinite hookFinite ((lt_iff_not_le (ne_nan_of_isFinite demoFinite)
        (ne_nan_of_isFinite hookFinite)).mpr longer)
    exact isFinite_add_of_mul (by decide) (by decide) hookFinite demoFinite hookFinite some_hook
      (le_self hookFinite) shorter (frames .hook)

/-- There is a blend just if one is asked for that has a positive length, and it suits its transition.
The output lasts for a positive finite time, at least as long as the demo and at most as long as both
clips. -/
theorem compile_blends {source : Value} {config : EditConfig}
    (accepted : EditConfig.read source = .ok config) {files : Files} {hook demo : Clip}
    {text : Option String} {options : EncoderOptions} {p : Program}
    (h : compile config files hook demo text options = .ok p) :
    ((∃ b, p.blend = some b) ↔ ∃ t, config.transition = some t ∧
        t.kind ∈ ["crossfade", "push-up", "zoom-cut"] ∧ 0 < t.seconds) ∧
      (∀ b, p.blend = some b →
        ∃ t, config.transition = some t ∧ b.Suits t p.timing.hookDuration) ∧
      p.expectedDuration.isFinite = true ∧ 0 < p.expectedDuration ∧
      p.timing.demoDuration ≤ p.expectedDuration ∧
      p.expectedDuration ≤ p.timing.hookDuration + p.timing.demoDuration := by
  have valid := EditConfig.valid_of_read accepted
  obtain ⟨r, made, -, rfl⟩ := compile_eq_ok.mp h
  obtain ⟨hookFinite, hookPositive⟩ := r.duration_positive made .hook
  obtain ⟨demoFinite, demoPositive⟩ := r.duration_positive made .demo
  have some_hook := Binary64.le_of_lt zero_spec.1 hookFinite hookPositive
  have suits : ∀ b, r.blend config = some b →
      ∃ t, config.transition = some t ∧ b.Suits t r.timing.hookDuration :=
    fun b planned => blend_suits valid hookFinite some_hook planned
  refine ⟨exists_blend_iff valid r.timing.hookDuration, suits, ?_⟩
  obtain ⟨starts, within⟩ : 0 ≤ demoStart r.timing (r.blend config) ∧
      demoStart r.timing (r.blend config) ≤ r.timing.hookDuration := by
    cases planned : r.blend config with
    | none => exact ⟨some_hook, le_self hookFinite⟩
    | some b =>
        obtain ⟨t, -, suit⟩ := suits b planned
        exact ⟨suit.starts, suit.within⟩
  have finite := isFinite_of_between zero_spec.1 hookFinite starts within
  have least := le_add_of_zero_le finite demoFinite starts
  have most := add_le_add_of_le finite hookFinite demoFinite within
  have sum := isFinite_of_between demoFinite (r.sum_finite made) least most
  simp only [Parts.program, expectedLength_eq]
  exact ⟨sum, Binary64.lt_of_lt_of_le zero_spec.1 demoFinite sum demoPositive least, least, most⟩

/-- A blend that is asked to last longer than the hook of five seconds. -/
def overlapping : Value := .mapping [(.text "transition",
  .mapping [(.text "type", .text "crossfade"), (.text "duration_ms", .int 8000)])]

/-- A blend that is longer than the hook starts with it. -/
theorem compile_blends_overlapping : ∃ config p b, EditConfig.read overlapping = .ok config ∧
    compile config ⟨"h", "d", "o"⟩ ⟨5, true⟩ ⟨4, true⟩ none {} = .ok p ∧ p.blend = some b ∧
    p.timing.hookDuration ≤ b.duration ∧ b.offset = 0 ∧ p.timing.demoDuration ≤ p.expectedDuration := by
  have known : ((EditConfig.read overlapping).toOption.bind fun config =>
      (compile config ⟨"h", "d", "o"⟩ ⟨5, true⟩ ⟨4, true⟩ none {}).toOption.bind fun p =>
        p.blend.map fun b => decide (p.timing.hookDuration ≤ b.duration)) = some true := by
    decide +kernel
  obtain ⟨config, read, made⟩ := Option.bind_eq_some_iff.mp known
  obtain ⟨p, compiled, found⟩ := Option.bind_eq_some_iff.mp made
  obtain ⟨b, blend, late⟩ := Option.map_eq_some_iff.mp found
  have late := of_decide_eq_true late
  have accepted := Outcome.eq_ok_of_toOption read
  have compiled := Outcome.eq_ok_of_toOption compiled
  obtain ⟨-, suits, -, -, least, -⟩ := compile_blends accepted compiled
  obtain ⟨t, -, suit⟩ := suits b blend
  exact ⟨config, p, b, accepted, compiled, blend, late, suit.whole late, least⟩

end Program
end Splice
