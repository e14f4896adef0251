import Splice.Program
import Splice.Proofs.Outcome

/-! # The chains of a program

What the generators contribute to a program is settled first; putting it together cannot fail any
more. `assemble_eq` says so and gives the graph as one list of chains.
-/

namespace Splice

namespace FilterGraph

theorem inputStream_eq {g : FilterGraph} {index : Int} (h : 0 ≤ index ∧ index < g.inputCount)
    (media : String) : g.inputStream index media = .ok (toString index ++ ":" ++ media) :=
  if_pos h

theorem add_eq (g : FilterGraph) {inputs filters outputs : List String} (some_filter : filters ≠ [])
    (nonempty : ∀ f ∈ filters, f ≠ "") :
    g.add inputs filters outputs =
      .ok (⟨inputs, filters, outputs⟩,
        { g with chains := g.chains ++ [⟨inputs, filters, outputs⟩] }) := by
  have kept : filters.filter (!·.isEmpty) = filters :=
    List.filter_eq_self.mpr fun f hf => by simp [nonempty f hf]
  simp [add, kept, some_filter]

/-- A stem's pad carries the count of the pads that it gave before. -/
theorem newPad_eq {g : FilterGraph} {stem : String} {k : Nat} (used : g.count stem = k) :
    g.newPad stem =
      (stem ++ toString k, { g with counters := (stem, k + 1) :: g.counters }) := by
  rw [newPad, used]

theorem count_cons (n : Int) (chains : List Chain) (mapped : List String) (stem other : String)
    (k : Nat) (counters : List (String × Nat)) :
    count ⟨n, chains, mapped, (stem, k) :: counters⟩ other =
      if other = stem then k else count ⟨n, chains, mapped, counters⟩ other := by
  by_cases h : other = stem
  · simp [count, h]
  · have different : (other == stem) = false := by simpa using h
    simp [count, h, List.lookup_cons, different]

end FilterGraph

namespace Soundtrack

/-- The chain of the sound of a clip. Silence comes from nowhere. -/
def clipChain (stream : String) (hasAudio : Bool) (start duration : Binary64) (pad : String) :
    Chain :=
  ⟨if hasAudio then [stream] else [], clipFilters hasAudio start duration, [pad]⟩

/-- The pads of the clips that are heard, in order. -/
def clipPads : AudioSource → List String
  | .none => []
  | .hook => ["a0"]
  | .demo => ["a0"]
  | .both => ["a0", "a1"]

/-- The chains of the clips that are heard. -/
def clipChains (source : AudioSource) (hookHasAudio demoHasAudio : Bool) (t : Timing) : List Chain :=
  match source with
  | .none => []
  | .hook => [clipChain "0:a" hookHasAudio t.hookStart t.hookDuration "a0"]
  | .demo => [clipChain "1:a" demoHasAudio t.demoStart t.demoDuration "a0"]
  | .both => [clipChain "0:a" hookHasAudio t.hookStart t.hookDuration "a0",
      clipChain "1:a" demoHasAudio t.demoStart t.demoDuration "a1"]

theorem clipFilters_nonempty (hasAudio : Bool) (start duration : Binary64) :
    ∀ f ∈ clipFilters hasAudio start duration, f ≠ "" := by
  cases hasAudio <;> simp [clipFilters, format, silence]

theorem addSide_eq {g : FilterGraph} {index : Int} (h : 0 ≤ index ∧ index < g.inputCount)
    {k : Nat} (used : g.count "a" = k) (hasAudio : Bool) (start duration : Binary64) :
    addSide g index hasAudio start duration = .ok ("a" ++ toString k, { g with
      chains := g.chains ++ [clipChain (toString index ++ ":" ++ "a") hasAudio start duration
        ("a" ++ toString k)]
      counters := ("a", k + 1) :: g.counters }) := by
  have some_filter : clipFilters hasAudio start duration ≠ [] := by
    cases hasAudio <;> simp [clipFilters]
  have inputs (counters : List (String × Nat)) :
      clipInputs { g with counters } index hasAudio =
        .ok (if hasAudio then [toString index ++ ":" ++ "a"] else []) := by
    rw [clipInputs, FilterGraph.inputStream_eq (g := { g with counters }) h]
    cases hasAudio <;> rfl
  simp only [addSide, FilterGraph.newPad_eq used, inputs, Outcome.ok_bind,
    FilterGraph.add_eq _ some_filter (clipFilters_nonempty hasAudio start duration)]
  rfl

/-- The pads of the clips that are heard; each clip has one if the sound is not left out. -/
def padsOf : AudioSource → Option Pads
  | .none => none
  | .hook => some ⟨some "a0", none⟩
  | .demo => some ⟨none, some "a0"⟩
  | .both => some ⟨some "a0", some "a1"⟩

theorem addSources_eq {g : FilterGraph} (two : g.inputCount = 2) (unused : g.count "a" = 0)
    (source : AudioSource) (hookHasAudio demoHasAudio : Bool) (t : Timing) :
    ∃ counters, addSources g source hookHasAudio demoHasAudio t =
      .ok (padsOf source, { g with
        chains := g.chains ++ clipChains source hookHasAudio demoHasAudio t, counters }) := by
  have hook := addSide_eq (by omega : (0 : Int) ≤ 0 ∧ 0 < g.inputCount) unused hookHasAudio
    t.hookStart t.hookDuration
  have demo := addSide_eq (by omega : (0 : Int) ≤ 1 ∧ 1 < g.inputCount) unused demoHasAudio
    t.demoStart t.demoDuration
  have streams : toString (0 : Int) ++ ":" ++ "a" = "0:a" ∧
      toString (1 : Int) ++ ":" ++ "a" = "1:a" :=
    ⟨rfl, rfl⟩
  have pads : "a" ++ toString 0 = "a0" ∧ "a" ++ toString 1 = "a1" := ⟨rfl, rfl⟩
  rw [streams.1, pads.1] at hook
  rw [streams.2, pads.1] at demo
  cases source with
  | none => exact ⟨g.counters, by simp [addSources, padsOf, clipChains]⟩
  | hook =>
      exact ⟨("a", 1) :: g.counters,
        by simp [addSources, needsHook, needsDemo, hook, padsOf, clipChains]⟩
  | demo =>
      exact ⟨("a", 1) :: g.counters,
        by simp [addSources, needsHook, needsDemo, demo, padsOf, clipChains]⟩
  | both =>
      -- the demo's chain goes onto the graph that holds the hook's already
      have second (chains : List Chain) := addSide_eq
        (g := ⟨g.inputCount, chains, g.mapped, ("a", 1) :: g.counters⟩) (k := 1)
        (by omega : (0 : Int) ≤ 1 ∧ 1 < g.inputCount) (by simp [FilterGraph.count_cons])
        demoHasAudio t.demoStart t.demoDuration
      rw [streams.2, pads.2] at second
      exact ⟨("a", 2) :: ("a", 1) :: g.counters,
        by simp [addSources, needsHook, needsDemo, hook, second, padsOf, clipChains]⟩

theorem padsOf_eq_some {source : AudioSource} (heard : source ≠ .none) :
    ∃ pads, padsOf source = some pads ∧
      pads.hook.toList ++ pads.demo.toList = clipPads source := by
  cases source with
  | none => exact absurd rfl heard
  | hook | demo | both => exact ⟨_, rfl, rfl⟩

/-- The chains that make the sound of the output with the given filter. -/
def combineChains (source : AudioSource) (filter : String) : List Chain :=
  if source = .none then [] else [⟨clipPads source, [filter], [FilterGraph.outputAudio]⟩]

theorem combineFilter_nonempty {source : AudioSource} {t : Timing} {filter : String}
    (h : combineFilter source t = .ok filter) : filter ≠ "" := by
  cases source with
  | hook =>
      obtain rfl := Except.ok.inj h
      simp
  | demo =>
      simp only [combineFilter] at h
      cases delay : (t.hookDuration * 1000).nearest with
      | error e => simp [delay, Except.map] at h
      | ok n =>
          simp only [delay, Except.map, Except.ok.injEq] at h
          simp [← h]
  | both | none =>
      obtain rfl := Except.ok.inj h
      decide

theorem addCombine_eq (g : FilterGraph) {pads : Pads} {source : AudioSource} {t : Timing}
    {filter : String} (h : combineFilter source t = .ok filter) :
    addCombine g pads source t = .ok { g with chains := g.chains ++
      [⟨pads.hook.toList ++ pads.demo.toList, [filter], [FilterGraph.outputAudio]⟩] } := by
  have nonempty : ∀ f ∈ [filter], f ≠ "" := by simpa using combineFilter_nonempty h
  simp only [addCombine, h, FilterGraph.add_eq g (by simp) nonempty]
  rfl

end Soundtrack

namespace Program

@[simp] theorem because_ok {ε α : Type} (cause : ε → Error) (a : α) :
    because cause (.ok a) = .ok a := rfl

/-- What the generators contribute to a program. -/
structure Parts where
  timing : Timing
  overlay : String
  hookEffect : String
  demoEffect : String
  /-- The filter that makes the sound of the output; empty if there is no sound. -/
  combine : String

/-- The filter that makes the sound of the output, if there is sound. -/
def combinePart (source : AudioSource) (t : Timing) : Except Error String :=
  if source = .none then .ok "" else because .whole (Soundtrack.combineFilter source t)

/-- What the generators contribute to a program, or why one of them cannot. -/
def parts (config : EditConfig) (hook demo : Clip) (text : Option String) (fonts : Overlay.Fonts) :
    Except Error Parts := do
  let timing ← because .window
    (Timing.resolve config.hookTrim config.demoTrim hook.duration demo.duration)
  let overlay ← because .color
    (Overlay.filter text config.textStyle config.textPosition timing.hookDuration fonts)
  let hookFrames ← because .whole timing.hookFrames
  let hookEffect ← because .whole (CameraEffect.filter config.hookEffect hookFrames)
  let demoFrames ← because .whole timing.demoFrames
  let demoEffect ← because .whole (CameraEffect.filter config.demoEffect demoFrames)
  let combine ← combinePart config.audioSource timing
  return ⟨timing, overlay, hookEffect, demoEffect, combine⟩

namespace Parts

def hookChain (p : Parts) (config : EditConfig) : Chain :=
  ⟨["0:v"], pictureFilters p.timing.hookStart p.timing.hookDuration (isTrimmed config.hookTrim)
    p.hookEffect p.overlay, ["v0"]⟩

def demoChain (p : Parts) (config : EditConfig) : Chain :=
  ⟨["1:v"], pictureFilters p.timing.demoStart p.timing.demoDuration (isTrimmed config.demoTrim)
    p.demoEffect "", ["v1"]⟩

def blend (p : Parts) (config : EditConfig) : Option Blend :=
  Blend.plan? config.transition p.timing.hookDuration

/-- All chains after the hook's picture. -/
def laterChains (p : Parts) (config : EditConfig) (hook demo : Clip) : List Chain :=
  p.demoChain config ::
    (Soundtrack.clipChains config.audioSource hook.hasAudio demo.hasAudio p.timing ++
    ⟨["v0", "v1"], [joinFilter (p.blend config)], [FilterGraph.outputVideo]⟩ ::
    Soundtrack.combineChains config.audioSource p.combine)

end Parts

def sentPads (source : AudioSource) : List String :=
  FilterGraph.outputVideo :: if source = .none then [] else [FilterGraph.outputAudio]

theorem normalize_nonempty (start duration : Binary64) (trimmed : Bool) :
    ∀ f ∈ normalize start duration trimmed, f ≠ "" := by
  cases trimmed <;> simp [normalize]

theorem pictureFilters_nonempty (start duration : Binary64) (trimmed : Bool)
    (effect overlay : String) :
    ∀ f ∈ pictureFilters start duration trimmed effect overlay, f ≠ "" := by
  intro f hf
  simp only [pictureFilters, List.mem_append, String.isEmpty_iff] at hf
  rcases hf with (hn | he) | ho
  · exact normalize_nonempty start duration trimmed f hn
  · split at he
    · simp at he
    · simp only [List.mem_cons, List.not_mem_nil, or_false] at he
      rcases he with rfl | rfl
      · assumption
      · decide
  · split at ho
    · simp at ho
    · rw [List.mem_singleton.mp ho]
      assumption

theorem pictureFilters_ne_nil (start duration : Binary64) (trimmed : Bool)
    (effect overlay : String) : pictureFilters start duration trimmed effect overlay ≠ [] := by
  simp [pictureFilters, normalize]

theorem addPicture_eq {g : FilterGraph} {index : Int} (h : 0 ≤ index ∧ index < g.inputCount)
    {k : Nat} (used : g.count "v" = k) {filters : List String} (some_filter : filters ≠ [])
    (nonempty : ∀ f ∈ filters, f ≠ "") :
    addPicture g index filters = .ok ("v" ++ toString k, { g with
      chains := g.chains ++ [⟨[toString index ++ ":" ++ "v"], filters, ["v" ++ toString k]⟩]
      counters := ("v", k + 1) :: g.counters }) := by
  have stream (counters : List (String × Nat)) := FilterGraph.inputStream_eq
    (g := { g with counters }) h "v"
  simp only [addPicture, FilterGraph.newPad_eq used, stream, Outcome.ok_bind,
    FilterGraph.add_eq _ some_filter nonempty]
  rfl

theorem joinFilter_nonempty (blend : Option Blend) : joinFilter blend ≠ "" := by
  cases blend with
  | none => decide
  | some b =>
      unfold joinFilter Blend.filter
      simp

theorem addOutputs_eq (g : FilterGraph) (config : EditConfig) (t : Timing) (blend : Option Blend) :
    addOutputs g config t blend "v0" "v1" (Soundtrack.padsOf config.audioSource) =
      (combinePart config.audioSource t).map fun filter =>
        { g with
          chains := g.chains ++ ⟨["v0", "v1"], [joinFilter blend], [FilterGraph.outputVideo]⟩ ::
            Soundtrack.combineChains config.audioSource filter
          mapped := g.mapped ++ sentPads config.audioSource } := by
  have nonempty : ∀ f ∈ [joinFilter blend], f ≠ "" := by simpa using joinFilter_nonempty blend
  have joined : g.add ["v0", "v1"] [joinFilter blend] [FilterGraph.outputVideo] = .ok (_, _) :=
    FilterGraph.add_eq g (by simp) nonempty
  rw [addOutputs, joined]
  generalize config.audioSource = source
  by_cases silent : source = .none
  · simp [combinePart, silent, because, Soundtrack.padsOf, Soundtrack.combineChains, sentPads,
      FilterGraph.map, Except.map]
  · obtain ⟨pads, hp, inputs⟩ := Soundtrack.padsOf_eq_some silent
    cases combined : Soundtrack.combineFilter source t with
    | error e =>
        simp [combinePart, silent, because, hp, combined, Soundtrack.addCombine, ofSoundtrack,
          Except.map]
    | ok filter =>
        simp [combinePart, silent, because, hp, combined, Soundtrack.addCombine_eq, inputs,
          Soundtrack.combineChains, sentPads, FilterGraph.map, Except.map]

theorem addPicture_first (start duration : Binary64) (trimmed : Bool) (effect overlay : String) :
    let filters := pictureFilters start duration trimmed effect overlay
    addPicture ⟨2, [], [], []⟩ 0 filters =
      .ok ("v0", ⟨2, [⟨["0:v"], filters, ["v0"]⟩], [], [("v", 1)]⟩) :=
  addPicture_eq (g := ⟨2, [], [], []⟩) (by decide) (k := 0) rfl
    (pictureFilters_ne_nil start duration trimmed effect overlay)
    (pictureFilters_nonempty start duration trimmed effect overlay)

theorem addPicture_second (first : Chain) (start duration : Binary64) (trimmed : Bool)
    (effect overlay : String) :
    let filters := pictureFilters start duration trimmed effect overlay
    addPicture ⟨2, [first], [], [("v", 1)]⟩ 1 filters =
      .ok ("v1", ⟨2, [first, ⟨["1:v"], filters, ["v1"]⟩], [], [("v", 2), ("v", 1)]⟩) :=
  addPicture_eq (g := ⟨2, [first], [], [("v", 1)]⟩) ⟨by decide, show (1 : Int) < 2 by decide⟩
    (k := 1) rfl (pictureFilters_ne_nil start duration trimmed effect overlay)
    (pictureFilters_nonempty start duration trimmed effect overlay)

/-- Once every generator has made its part, putting the program together cannot fail. -/
theorem assemble_eq (config : EditConfig) (hook demo : Clip) (text : Option String)
    (fonts : Overlay.Fonts) : ∃ counters, assemble config hook demo text fonts =
      (parts config hook demo text fonts).map fun p =>
        ⟨p.timing, p.blend config, ⟨2, p.hookChain config :: p.laterChains config hook demo,
          sentPads config.audioSource, counters⟩, config.audioSource != .none, p.overlay⟩ := by
  have someSound : (Soundtrack.padsOf config.audioSource).isSome = (config.audioSource != .none) := by
    cases config.audioSource <;> rfl
  unfold assemble parts
  refine Outcome.exists_bind_eq_map [] fun t => ?_
  refine Outcome.exists_bind_eq_map [] fun overlay => ?_
  refine Outcome.exists_bind_eq_map [] fun hookFrames => ?_
  refine Outcome.exists_bind_eq_map [] fun hookEffect => ?_
  simp only [addPicture_first, because_ok, Outcome.ok_bind]
  refine Outcome.exists_bind_eq_map [] fun demoFrames => ?_
  refine Outcome.exists_bind_eq_map [] fun demoEffect => ?_
  obtain ⟨counters, sources⟩ := Soundtrack.addSources_eq
    (g := ⟨2, [⟨["0:v"], pictureFilters t.hookStart t.hookDuration (isTrimmed config.hookTrim)
      hookEffect overlay, ["v0"]⟩, ⟨["1:v"], pictureFilters t.demoStart t.demoDuration
      (isTrimmed config.demoTrim) demoEffect "", ["v1"]⟩], [], [("v", 2), ("v", 1)]⟩)
    rfl rfl config.audioSource hook.hasAudio demo.hasAudio t
  refine ⟨counters, ?_⟩
  simp only [addPicture_second, because_ok, Outcome.ok_bind, sources, addOutputs_eq, someSound]
  cases combinePart config.audioSource t with
  | error e => rfl
  | ok combine => simp [Except.map, Parts.laterChains, Parts.hookChain, Parts.demoChain, Parts.blend]

end Program
end Splice
