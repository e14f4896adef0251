import Splice.Proofs.Binary64.Order
import Splice.Proofs.EditConfig.Checked
import Splice.Proofs.Program.Windows

/-! # When there is a program

An accepted configuration gives a program unless a trim leaves nothing of its clip, or a window is too
long to be counted in frames or milliseconds. No generator fails for any other reason.
-/

namespace Splice

namespace CameraEffect

open Binary64

/-- A share of a number is a number. -/
theorem exists_punchRamp {frames : Int} {units : Nat} (fits : Fits units)
    (below : frames.natAbs * unitsPerOne ≤ units) : ∃ ramp, punchRamp frames = .ok ramp := by
  obtain ⟨n, shareFits, share, small⟩ :=
    ofDecimal_eq_finite Nat.one_pos false (by decide : 2 ≤ 10 ^ 1)
  have share : punchRampShare = .finite false n shareFits := share
  obtain ⟨counted, countFits, count⟩ := ofInt_eq_finite fits below
  obtain ⟨product, productFits, made, -⟩ := round_eq_finite countFits unitsPerOne_pos
    (Nat.mul_le_mul_left counted small) (decide (frames < 0) != false)
  rw [punchRamp, count, share, finite_mul_finite, made]
  exact ⟨_, rfl⟩

theorem exists_centerCrop (e : Effect) : ∃ crop, centerCrop e.multiplier = .ok crop := by
  apply Outcome.exists_eq_ok
  unfold Effect.multiplier
  split
  · decide +kernel
  · split
    · decide +kernel
    · decide +kernel

/-- Every effect can be written for a count of frames that a window has. -/
theorem exists_filter (effect : Option Effect) {frames : Int} {units : Nat} (fits : Fits units)
    (below : frames.natAbs * unitsPerOne ≤ units) : ∃ text, filter effect frames = .ok text := by
  cases effect with
  | none => exact ⟨_, rfl⟩
  | some e =>
      simp only [filter]
      split
      · exact ⟨_, rfl⟩
      split
      · obtain ⟨ramp, made⟩ := exists_punchRamp fits below
        simp [punchZoom, made]
      split
      · exact ⟨_, rfl⟩
      split
      · exact exists_centerCrop e
      · exact ⟨_, rfl⟩

end CameraEffect

namespace Timing

open Binary64

/-- Frames are counted unless there are too many; effects can be written for any count. -/
theorem frameCount_cases {duration : Binary64} (number : duration ≠ .nan) :
    (duration * 30).IsInfinite ∧ frameCount duration = .error .ofInfinity ∨
      ¬ (duration * 30).IsInfinite ∧ ∃ frames, frameCount duration = .ok frames ∧
        ∀ effect, ∃ text, CameraEffect.filter effect frames = .ok text := by
  have count : frameCount duration =
      ((duration * 30).floor).map fun n => max (framesPerSecond : Int) n := rfl
  have product : duration * 30 ≠ .nan := mul_ofNat_ne_nan (by decide) (by decide) number
  rcases toWhole_cases product (Int.fdiv · unitsPerOne) with
    ⟨infinite, failed⟩ | ⟨finite, s, m, fits, -, counted⟩
  · exact .inl ⟨infinite, by rw [count, floor, failed]; rfl⟩
  · refine .inr ⟨finite, _, by rw [count, floor, counted]; rfl, fun effect => ?_⟩
    dsimp only
    have whole : signedUnits s m / (unitsPerOne : Int) * unitsPerOne ≤ signedUnits s m :=
      Int.ediv_mul_le _ (Int.natCast_ne_zero.mpr unitsPerOne_pos.ne')
    have size : signedUnits s m ≤ m := by cases s <;> simp [signedUnits]
    rw [Int.fdiv_eq_ediv_of_nonneg _ (Int.natCast_nonneg _)]
    rcases Int.le_total (signedUnits s m / (unitsPerOne : Int)) framesPerSecond with few | many
    · rw [Int.max_eq_left few]
      exact CameraEffect.exists_filter effect (fits_whole (n := framesPerSecond) (by decide))
        (by rw [Int.natAbs_natCast])
    · rw [Int.max_eq_right many]
      refine CameraEffect.exists_filter effect fits ?_
      have positive : 0 ≤ signedUnits s m / (unitsPerOne : Int) :=
        Int.le_trans (Int.natCast_nonneg _) many
      have counts : ((signedUnits s m / (unitsPerOne : Int)).natAbs : Int) * unitsPerOne ≤ m := by
        rw [Int.natAbs_of_nonneg positive]
        exact whole.trans size
      exact_mod_cast counts

end Timing

theorem Overlay.exists_filter {config : EditConfig} (valid : config.Valid) (text : Option String)
    (hookDuration : Binary64) (fonts : Fonts) :
    ∃ overlay, filter text config.textStyle config.textPosition hookDuration fonts = .ok overlay := by
  by_cases shown : Shown text
  · obtain ⟨s, rfl, visible⟩ := shown
    obtain ⟨color, known⟩ : ∃ color, Color.ofValue (config.textStyle.getD {}).color = .ok color := by
      cases style : config.textStyle with
      | none => exact ⟨⟨255, 255, 255, none⟩, rfl⟩
      | some style' => exact (valid.textStyle style' style).color
    rw [filter_of_shown rfl visible, known]
    exact ⟨_, rfl⟩
  · exact ⟨"", filter_of_not_shown shown _ _ _ _⟩

namespace Program

namespace Side

def name : Side → String
  | .hook => "hook"
  | .demo => "demo"

/-- The window that the trim of a side cuts, if it is in force. -/
def cut? (config : EditConfig) (s : Side) : Option (Binary64 × Binary64) :=
  (s.trim config).bind Trim.window?

/-- The trim of a side is in force and ends no later than it starts. -/
def Emptied (config : EditConfig) (s : Side) : Prop :=
  ∃ start finish, s.cut? config = some (start, finish) ∧ finish ≤ start

instance (config : EditConfig) (s : Side) : Decidable (s.Emptied config) :=
  match cut : s.cut? config with
  | none => .isFalse fun ⟨_, _, some_cut, _⟩ => nomatch cut.symm.trans some_cut
  | some (start, finish) => decidable_of_iff (finish ≤ start)
      ⟨fun h => ⟨start, finish, cut, h⟩, fun ⟨_, _, some_cut, h⟩ => by
        obtain ⟨rfl, rfl⟩ := Prod.mk.inj (Option.some.inj (cut.symm.trans some_cut))
        exact h⟩

/-- The length of a side's window: what its trim leaves, or the whole clip. -/
def length (config : EditConfig) (hook demo : Clip) (s : Side) : Binary64 :=
  match s.cut? config with
  | some (start, finish) => finish - start
  | none => (s.clip hook demo).duration

end Side

/-- A side's window is too long for a count of frames, or the hook's for a count of milliseconds where
these are counted. -/
def Unbounded (config : EditConfig) (hook demo : Clip) : Prop :=
  (∃ s : Side, (s.length config hook demo * 30).IsInfinite) ∨
    config.audioSource = .demo ∧ (Side.hook.length config hook demo * 1000).IsInfinite

section Windows

variable {config : EditConfig} {hook demo : Clip} {s : Side}

theorem Side.trim_valid (valid : config.Valid) (s : Side) : ∀ t, s.trim config = some t → t.Valid := by
  cases s with
  | hook => exact valid.hookTrim
  | demo => exact valid.demoTrim

theorem Side.finite_of_cut (valid : config.Valid) {start finish : Binary64}
    (cut : s.cut? config = some (start, finish)) : start.isFinite = true ∧ finish.isFinite = true := by
  obtain ⟨t, given, window⟩ := Option.bind_eq_some_iff.mp cut
  have rules := s.trim_valid valid t given
  unfold Trim.window? at window
  split at window
  · cases window
  · obtain ⟨x, ends, same⟩ := Option.map_eq_some_iff.mp window
    obtain ⟨rfl, rfl⟩ := Prod.mk.inj same
    exact ⟨rules.start, rules.finish x ends⟩

/-- A trim that leaves nothing is told with what it says. -/
theorem Side.window_of_emptied (valid : config.Valid) {start finish : Binary64}
    (cut : s.cut? config = some (start, finish)) (h : finish ≤ start) (probed : Binary64) :
    Timing.window (s.trim config) probed s.name = .error ⟨s.name, start, finish - start, probed⟩ := by
  obtain ⟨starts, ends⟩ := finite_of_cut valid cut
  have window : (s.trim config).bind Trim.window? = some (start, finish) := cut
  simp only [Timing.window, window]
  rw [if_pos ((Binary64.sub_le_zero_iff starts ends).mpr h)]

theorem Side.window_of_filled (valid : config.Valid) (filled : ¬ s.Emptied config)
    (positive : 0 < (s.clip hook demo).duration) : ∃ start,
      Timing.window (s.trim config) (s.clip hook demo).duration s.name =
        .ok (start, s.length config hook demo) := by
  unfold length
  cases cut : s.cut? config with
  | none =>
      have window : (s.trim config).bind Trim.window? = none := cut
      refine ⟨0, ?_⟩
      simp only [Timing.window, window]
      rw [if_neg (Binary64.not_le_of_lt positive)]
  | some w =>
      obtain ⟨start, finish⟩ := w
      obtain ⟨starts, ends⟩ := finite_of_cut valid cut
      have window : (s.trim config).bind Trim.window? = some (start, finish) := cut
      refine ⟨start, ?_⟩
      simp only [Timing.window, window]
      rw [if_neg fun h => filled ⟨start, finish, cut, (Binary64.sub_le_zero_iff starts ends).mp h⟩]

theorem Side.length_ne_nan (valid : config.Valid)
    (finite : (s.clip hook demo).duration.isFinite = true) : s.length config hook demo ≠ .nan := by
  unfold length
  cases cut : s.cut? config with
  | none =>
      obtain ⟨negative, units, fits, made⟩ := Binary64.exists_of_isFinite finite
      rw [made]
      nofun
  | some w =>
      obtain ⟨starts, ends⟩ := finite_of_cut valid cut
      exact Binary64.sub_ne_nan starts ends

theorem resolve_of_filled (valid : config.Valid) (filled : ∀ s : Side, ¬ s.Emptied config)
    (positive : ∀ s : Side, 0 < (s.clip hook demo).duration) : ∃ t,
      Timing.resolve config.hookTrim config.demoTrim hook.duration demo.duration = .ok t ∧
        ∀ s : Side, s.duration t = s.length config hook demo := by
  obtain ⟨hookStart, first⟩ := Side.window_of_filled valid (filled .hook) (positive .hook)
  obtain ⟨demoStart, second⟩ := Side.window_of_filled valid (filled .demo) (positive .demo)
  refine ⟨⟨hookStart, Side.hook.length config hook demo, demoStart, Side.demo.length config hook demo⟩,
    ?_, fun s => by cases s <;> rfl⟩
  simp only [Side.trim, Side.clip, Side.name] at first second
  simp only [Timing.resolve, first, second, Outcome.ok_bind, Outcome.pure_eq]

end Windows

/-- The sound is put together unless it waits for a hook that is too long. -/
theorem combinePart_cases (source : AudioSource) {t : Timing} (number : t.hookDuration ≠ .nan) :
    (source = .demo ∧ (t.hookDuration * 1000).IsInfinite) ∧
        combinePart source t = .error (.whole .ofInfinity) ∨
      ¬ (source = .demo ∧ (t.hookDuration * 1000).IsInfinite) ∧
        ∃ combine, combinePart source t = .ok combine := by
  cases source with
  | demo =>
      have product : t.hookDuration * 1000 ≠ .nan :=
        Binary64.mul_ofNat_ne_nan (by decide) (by decide) number
      have rounds : combinePart .demo t = because .whole (((t.hookDuration * 1000).nearest).map
          fun delay => "adelay=" ++ toString delay ++ "|" ++ toString delay) := rfl
      rcases Binary64.toWhole_cases product (roundDivInt · Binary64.unitsPerOne) with
        ⟨infinite, failed⟩ | ⟨finite, s, m, fits, -, delay⟩
      · refine .inl ⟨⟨rfl, infinite⟩, ?_⟩
        rw [rounds, Binary64.nearest, failed]
        rfl
      · refine .inr ⟨fun h => finite h.2, ?_⟩
        rw [rounds, Binary64.nearest, delay]
        exact ⟨_, rfl⟩
  | hook | both | none => exact .inr ⟨by simp, _, rfl⟩

/-- Where the windows are settled, the generators make their parts unless a window is too long. -/
theorem parts_of_resolve {config : EditConfig} (valid : config.Valid) {hook demo : Clip}
    (finite : ∀ s : Side, (s.clip hook demo).duration.isFinite = true) {t : Timing}
    (resolved : Timing.resolve config.hookTrim config.demoTrim hook.duration demo.duration = .ok t)
    (lengths : ∀ s : Side, s.duration t = s.length config hook demo) (text : Option String)
    (fonts : Overlay.Fonts) :
    Unbounded config hook demo ∧
        parts config hook demo text fonts = .error (.whole .ofInfinity) ∨
      ¬ Unbounded config hook demo ∧ ∃ p, parts config hook demo text fonts = .ok p := by
  have number (s : Side) : s.duration t ≠ .nan := lengths s ▸ s.length_ne_nan valid (finite s)
  have unbounded : Unbounded config hook demo ↔ (∃ s : Side, (s.duration t * 30).IsInfinite) ∨
      config.audioSource = .demo ∧ (t.hookDuration * 1000).IsInfinite := by
    have hookLength : t.hookDuration = _ := lengths .hook
    simp only [Unbounded, lengths, hookLength]
  obtain ⟨overlay, drawn⟩ := Overlay.exists_filter valid text t.hookDuration fonts
  rw [unbounded]
  simp only [parts, resolved, drawn, because_ok, Outcome.ok_bind]
  rcases Timing.frameCount_cases (number .hook) with ⟨long, failed⟩ | ⟨hookFits, n, counted, effects⟩
  · have failed : t.hookFrames = .error .ofInfinity := failed
    exact .inl ⟨.inl ⟨.hook, long⟩, by rw [failed]; rfl⟩
  have counted : t.hookFrames = .ok n := counted
  obtain ⟨hookEffect, written⟩ := effects config.hookEffect
  simp only [counted, written, because_ok, Outcome.ok_bind]
  rcases Timing.frameCount_cases (number .demo) with ⟨long, failed⟩ | ⟨demoFits, n, counted, effects⟩
  · have failed : t.demoFrames = .error .ofInfinity := failed
    exact .inl ⟨.inl ⟨.demo, long⟩, by rw [failed]; rfl⟩
  have counted : t.demoFrames = .ok n := counted
  obtain ⟨demoEffect, written⟩ := effects config.demoEffect
  have fits : ¬ ∃ s : Side, (s.duration t * 30).IsInfinite := by
    rintro ⟨s, long⟩
    cases s with
    | hook => exact hookFits long
    | demo => exact demoFits long
  simp only [counted, written, because_ok, Outcome.ok_bind, fits, false_or]
  rcases combinePart_cases config.audioSource (number .hook) with
    ⟨long, failed⟩ | ⟨short, combine, made⟩
  · exact .inl ⟨long, by rw [failed]; rfl⟩
  · exact .inr ⟨short, _, by rw [made]; rfl⟩

/-- What becomes of a configuration and two clips. -/
inductive Verdict (config : EditConfig) (hook demo : Clip) (options : EncoderOptions) :
    Except Error Program → Prop
  /-- The first side of which nothing is left is told, with what its trim says. -/
  | emptied (s : Side) {start finish : Binary64} (cut : s.cut? config = some (start, finish))
      (h : finish ≤ start) (first : s = .demo → ¬ Side.hook.Emptied config) :
      Verdict config hook demo options
        (.error (.window ⟨s.name, start, finish - start, (s.clip hook demo).duration⟩))
  | unbounded (filled : ∀ s : Side, ¬ s.Emptied config) (long : Unbounded config hook demo) :
      Verdict config hook demo options (.error (.whole .ofInfinity))
  | unwritable (filled : ∀ s : Side, ¬ s.Emptied config) (short : ¬ Unbounded config hook demo)
      (long : options.quality.isWritable = false) :
      Verdict config hook demo options (.error .unwritable)
  | program (filled : ∀ s : Side, ¬ s.Emptied config) (short : ¬ Unbounded config hook demo)
      (written : options.quality.isWritable = true) (p : Program) :
      Verdict config hook demo options (.ok p)

theorem parts_of_emptied {config : EditConfig} (valid : config.Valid) {hook demo : Clip}
    (positive : ∀ s : Side, 0 < (s.clip hook demo).duration) {s : Side} (emptied : s.Emptied config)
    (first : s = .demo → ¬ Side.hook.Emptied config) (text : Option String) (fonts : Overlay.Fonts) :
    ∃ start finish, s.cut? config = some (start, finish) ∧ finish ≤ start ∧
      parts config hook demo text fonts =
        .error (.window ⟨s.name, start, finish - start, (s.clip hook demo).duration⟩) := by
  obtain ⟨start, finish, cut, h⟩ := emptied
  refine ⟨start, finish, cut, h, ?_⟩
  have refused := Side.window_of_emptied valid cut h (s.clip hook demo).duration
  cases s with
  | hook =>
      simp only [Side.trim, Side.clip] at refused
      simp only [parts, Timing.resolve, Side.clip]
      rw [← Side.name, refused]
      rfl
  | demo =>
      obtain ⟨hookStart, settled⟩ := Side.window_of_filled valid (first rfl) (positive .hook)
      simp only [Side.trim, Side.clip, Side.name] at refused settled
      simp only [parts, Timing.resolve, settled, Outcome.ok_bind, Side.clip, Side.name]
      rw [refused]
      rfl

theorem compile_verdict {config : EditConfig} (valid : config.Valid) {hook demo : Clip}
    (finite : ∀ s : Side, (s.clip hook demo).duration.isFinite = true)
    (positive : ∀ s : Side, 0 < (s.clip hook demo).duration) (files : Files) (text : Option String)
    (options : EncoderOptions) :
    Verdict config hook demo options (compile config files hook demo text options) := by
  rw [compile_eq]
  by_cases some_emptied : ∃ s : Side, s.Emptied config ∧ (s = .demo → ¬ Side.hook.Emptied config)
  · obtain ⟨s, emptied, first⟩ := some_emptied
    obtain ⟨start, finish, cut, h, failed⟩ :=
      parts_of_emptied valid positive emptied first text options.fonts
    rw [failed]
    exact .emptied s cut h first
  · have filledHook : ¬ Side.hook.Emptied config := fun h => some_emptied ⟨.hook, h, nofun⟩
    have filled : ∀ s : Side, ¬ s.Emptied config := by
      intro s
      cases s with
      | hook => exact filledHook
      | demo => exact fun h => some_emptied ⟨.demo, h, fun _ => filledHook⟩
    obtain ⟨t, resolved, lengths⟩ := resolve_of_filled valid filled positive
    rcases parts_of_resolve valid finite resolved lengths text options.fonts with
      ⟨long, failed⟩ | ⟨short, p, made⟩
    · rw [failed]
      exact .unbounded filled long
    · rw [made, Outcome.ok_bind]
      cases written : options.quality.isWritable with
      | false => exact .unwritable filled short written
      | true => exact .program filled short written _

/-- An accepted configuration and two clips with lengths give a program, or it is told why there is
none: a trim in force that ends no later than it starts, the hook's if both do; else a window that is
too long for a count of frames, or the hook's for one of milliseconds where the demo's sound waits for
its end; else a quality factor that is too long to be written. Nothing else is told. -/
theorem compile_outcome {source : Value} {config : EditConfig}
    (accepted : EditConfig.read source = .ok config) {hook demo : Clip}
    (finite : ∀ s : Side, (s.clip hook demo).duration.isFinite = true)
    (positive : ∀ s : Side, 0 < (s.clip hook demo).duration) (files : Files) (text : Option String)
    (options : EncoderOptions) :
    let outcome := compile config files hook demo text options
    ((∃ e, outcome = .error (.window e)) ↔ ∃ s : Side, s.Emptied config) ∧
    (∀ (s : Side) (start finish : Binary64), s.cut? config = some (start, finish) → finish ≤ start →
      (s = .demo → ¬ Side.hook.Emptied config) → outcome =
        .error (.window ⟨s.name, start, finish - start, (s.clip hook demo).duration⟩)) ∧
    (outcome = .error (.whole .ofInfinity) ↔
      (∀ s : Side, ¬ s.Emptied config) ∧ Unbounded config hook demo) ∧
    (outcome = .error .unwritable ↔ (∀ s : Side, ¬ s.Emptied config) ∧
      ¬ Unbounded config hook demo ∧ options.quality.isWritable = false) ∧
    ((∃ p, outcome = .ok p) ↔ (∀ s : Side, ¬ s.Emptied config) ∧
      ¬ Unbounded config hook demo ∧ options.quality.isWritable = true) ∧
    ∀ e, outcome = .error e → (∃ w, e = .window w) ∨ e = .whole .ofInfinity ∨ e = .unwritable := by
  have verdict := compile_verdict (EditConfig.valid_of_read accepted) finite positive files text options
  intro outcome
  change Verdict config hook demo options outcome at verdict
  generalize outcome = result at verdict
  cases verdict with
  | @emptied s start finish cut h first =>
      have emptied : ∃ s : Side, s.Emptied config := ⟨s, start, finish, cut, h⟩
      refine ⟨by simp [emptied], fun s' start' finish' cut' h' first' => ?_, ?_, ?_, ?_, by simp⟩
      · have same : s' = s := by
          cases s <;> cases s'
          · rfl
          · exact absurd ⟨start, finish, cut, h⟩ (first' rfl)
          · exact absurd ⟨start', finish', cut', h'⟩ (first rfl)
          · rfl
        subst same
        obtain ⟨rfl, rfl⟩ := Prod.mk.inj (Option.some.inj (cut'.symm.trans cut))
        rfl
      all_goals
        obtain ⟨s, emptied⟩ := emptied
        simp only [reduceCtorEq, Except.error.injEq, exists_false, false_iff, not_and]
        exact fun filled => absurd emptied (filled s)
  | unbounded filled long =>
      refine ⟨by simp [filled], fun s start finish cut h => ?_, by simp [filled, long], by simp [long],
        by simp [long], by simp⟩
      exact absurd ⟨start, finish, cut, h⟩ (filled s)
  | unwritable filled short long =>
      refine ⟨by simp [filled], fun s start finish cut h => ?_, by simp [short],
        by simp [filled, short, long], by simp [long], by simp⟩
      exact absurd ⟨start, finish, cut, h⟩ (filled s)
  | program filled short written p =>
      refine ⟨by simp [filled], fun s start finish cut h => ?_, by simp [short],
        by simp [written], by simp [filled, short, written], by simp⟩
      exact absurd ⟨start, finish, cut, h⟩ (filled s)

/-- A hook that is cut to nothing, and a demo as well. -/
def emptied : Value := .mapping
  [(.text "hook_trim", .mapping [(.text "start", .int 3), (.text "end", .int 3)]),
    (.text "demo_trim", .mapping [(.text "start", .int 2), (.text "end", .int 1)])]

theorem compile_outcome_emptied : ∃ config, EditConfig.read emptied = .ok config ∧
    compile config ⟨"h", "d", "o"⟩ ⟨5, true⟩ ⟨8, false⟩ none {} =
      .error (.window ⟨"hook", 3, 3 - 3, 5⟩) := by
  have cuts : (EditConfig.read emptied).toOption.map (Side.cut? · .hook) = some (some (3, 3)) := by
    decide +kernel
  cases accepted : EditConfig.read emptied with
  | error e => simp [accepted, Except.toOption] at cuts
  | ok config =>
      have cut : Side.cut? config .hook = some (3, 3) := by
        simpa [accepted, Except.toOption] using cuts
      have sides (s : Side) : (s.clip ⟨5, true⟩ ⟨8, false⟩).duration.isFinite = true ∧
          0 < (s.clip ⟨5, true⟩ ⟨8, false⟩).duration := by
        cases s with
        | hook =>
            exact ⟨Binary64.isFinite_ofNat (by decide : 5 ≤ 2 ^ 53),
              Binary64.ofNat_pos (by decide : 0 < 5) (by decide)⟩
        | demo =>
            exact ⟨Binary64.isFinite_ofNat (by decide : 8 ≤ 2 ^ 53),
              Binary64.ofNat_pos (by decide : 0 < 8) (by decide)⟩
      have outcome := compile_outcome accepted (fun s => (sides s).1) (fun s => (sides s).2)
        ⟨"h", "d", "o"⟩ none {}
      have cutToNothing : (3 : Binary64) ≤ 3 := Binary64.le_self (Binary64.isFinite_ofNat (by decide))
      exact ⟨config, rfl, outcome.2.1 .hook 3 3 cut cutToNothing nofun⟩

/-- The default configuration has a program for clips of any usual length, but none with a quality
factor of 4301 digits: what is told then is a `ValueError`. -/
theorem compile_overlong : EditConfig.read .null = .ok {} ∧ (∀ s : Side, ¬ s.Emptied {}) ∧
    ¬ Unbounded {} ⟨5, true⟩ ⟨5, true⟩ ∧
    compile {} ⟨"h", "d", "o"⟩ ⟨5, true⟩ ⟨5, true⟩ none { quality := .int (Nat.pow 10 4300 : Nat) } =
      .error .unwritable ∧ Error.unwritable.kind = "ValueError" := by
  have long : Value.isWritable (.int ((Nat.pow 10 4300 : Nat) : Int)) = false := by decide +kernel
  have counts : ((5 : Binary64) * 30).isFinite = true := by decide +kernel
  obtain ⟨p, made⟩ : ∃ p, parts {} ⟨5, true⟩ ⟨5, true⟩ none {} = .ok p :=
    Outcome.exists_eq_ok (by decide +kernel)
  refine ⟨rfl, ?_, ?_, ?_, rfl⟩
  · rintro s ⟨start, finish, cut, -⟩
    cases s <;> cases cut
  · rintro (⟨s, negative, infinite⟩ | ⟨demo, -⟩)
    · have short : (s.length {} ⟨5, true⟩ ⟨5, true⟩ * 30).isFinite = true := by
        cases s <;> exact counts
      rw [infinite] at short
      cases short
    · cases demo
  · rw [compile_eq, made, Outcome.ok_bind, long]
    rfl

end Program

end Splice
