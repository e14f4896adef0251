import Mathlib.Data.List.TakeWhile
import Splice.Proofs.Overlay
import Splice.Proofs.Program.Layout

/-! # Reading the graph of a program

A graph is one text in which three kinds of marks are nested, and the text over the hook is a part of
it. Every generator keeps its marks in quotes, so that the graph is read back as the chains that were
added, and no text makes another filter or chain than the one that draws it.
-/

namespace Splice

namespace Program

open FilterGraph

/-- Whether a filter draws a text: its name, up to the first `=`, says so. -/
def drawsText (filter : String) : Bool := filter.toList.takeWhile (· != '=') == "drawtext".toList

theorem drawsText_append {start : String} (named : '=' ∈ start.toList) (rest : String) :
    drawsText (start ++ rest) = drawsText start := by
  have stops : (start.toList.takeWhile (· != '=')).length ≠ start.toList.length := by
    intro same
    have whole := (List.takeWhile_prefix (l := start.toList) (· != '=')).eq_of_length same
    have := List.takeWhile_eq_self_iff.mp whole '=' named
    simp at this
  rw [drawsText, drawsText, String.toList_append, List.takeWhile_append, if_neg stops]

/-- A text of filters none of which draws a text. -/
def Undrawn (s : String) : Prop := ∃ read, Filters s read ∧ ∀ f ∈ read, drawsText f = false

theorem Undrawn.of_piece {s read : String} (h : Piece s read) (nonempty : read ≠ "")
    (other : drawsText read = false) : Undrawn s :=
  ⟨[read], h.filters nonempty, by simpa using other⟩

/-- A filter with a name of its own does not draw a text, whatever its options are. -/
theorem Undrawn.of_named {s start rest : String} (h : Piece s (start ++ rest))
    (named : '=' ∈ start.toList) (other : drawsText start = false) : Undrawn s := by
  apply of_piece h
  · intro empty
    rw [(String.append_eq_empty_iff.mp empty).1] at named
    simp at named
  · rwa [drawsText_append named]

theorem Undrawn.comma {s t : String} (hs : Undrawn s) (ht : Undrawn t) : Undrawn (s ++ "," ++ t) := by
  obtain ⟨x, readX, otherX⟩ := hs
  obtain ⟨y, readY, otherY⟩ := ht
  refine ⟨x ++ y, readX.comma readY, fun f hf => ?_⟩
  rcases List.mem_append.mp hf with h | h
  · exact otherX f h
  · exact otherY f h

theorem filters_plain {s : String} (h : Avoids (',' :: signs) s) (nonempty : s ≠ "") :
    Filters s [s] :=
  (Piece.plain h).filters nonempty

theorem normalize_undrawn (start duration : Binary64) (trimmed : Bool) :
    ∀ f ∈ normalize start duration trimmed, Undrawn f := by
  have plain {s : String} (h : Avoids (',' :: signs) s) (nonempty : s ≠ "")
      (other : drawsText s = false) : Undrawn s := .of_piece (Piece.plain h) nonempty other
  have trim : Undrawn ("trim=start=" ++ (start.fixed 3 ++ (":duration=" ++ duration.fixed 3))) := by
    refine .of_named (Piece.plain ?_) (by decide) (by decide)
    simp (disch := decide) only [Avoids.append_iff, Binary64.avoids_fixed, and_true, true_and]
    decide
  rw [← String.append_assoc, ← String.append_assoc] at trim
  have cut : ∀ f ∈ if trimmed then ["trim=start=" ++ start.fixed 3 ++ ":duration=" ++
      duration.fixed 3, "setpts=PTS-STARTPTS"] else [], Undrawn f := by
    split
    · simp only [List.forall_mem_cons]
      exact ⟨trim, plain (by decide) (by decide) (by decide), by simp⟩
    · simp
  simp only [normalize, List.forall_mem_append, List.forall_mem_cons]
  refine ⟨cut, ?_, ?_, ?_, ?_, by simp⟩
  all_goals exact plain (by decide) (by decide) (by decide)

/-- The quotes around the three expressions are taken away; the commas inside of them end nothing. -/
theorem piece_zoomPan {z x y : String} (hz : Avoids ['\''] z) (hx : Avoids ['\''] x)
    (hy : Avoids ['\''] y) :
    Piece (CameraEffect.zoomPan z x y) ("zoompan=z=" ++ (z ++ (":x=" ++ (x ++ (":y=" ++ (y ++
      (":d=1:s=" ++ (CameraEffect.frameSize "x" ++ ":fps=30")))))))) := by
  have size : Piece (CameraEffect.frameSize "x") (CameraEffect.frameSize "x") :=
    Piece.plain (by decide)
  have nameZ : Piece "zoompan=z=" "zoompan=z=" := Piece.plain (by decide)
  have nameX : Piece ":x=" ":x=" := Piece.plain (by decide)
  have nameY : Piece ":y=" ":y=" := Piece.plain (by decide)
  have frames : Piece ":d=1:s=" ":d=1:s=" := Piece.plain (by decide)
  have rate : Piece ":fps=30" ":fps=30" := Piece.plain (by decide)
  have all := nameZ.append ((Piece.quoted_plain hz).append (nameX.append ((Piece.quoted_plain
    hx).append (nameY.append ((Piece.quoted_plain hy).append (frames.append (size.append rate)))))))
  -- the text is written with each quote beside its name
  have beforeZ : "zoompan=z='" = "zoompan=z=" ++ "'" := rfl
  have beforeX : "':x='" = "'" ++ (":x=" ++ "'") := rfl
  have beforeY : "':y='" = "'" ++ (":y=" ++ "'") := rfl
  have after : "':d=1:s=" = "'" ++ ":d=1:s=" := rfl
  unfold CameraEffect.zoomPan
  rw [beforeZ, beforeX, beforeY, after]
  simp only [String.append_assoc] at all ⊢
  exact all

theorem zoomPan_undrawn {z x y : String} (hz : Avoids ['\''] z) (hx : Avoids ['\''] x)
    (hy : Avoids ['\''] y) : Undrawn (CameraEffect.zoomPan z x y) :=
  .of_named (piece_zoomPan hz hx hy) (by decide) (by decide)

theorem centerX_avoids : Avoids ['\''] CameraEffect.centerX := by decide

theorem centerY_avoids : Avoids ['\''] CameraEffect.centerY := by decide

section Expressions

variable (multiplier : Binary64) (frames : Int)

theorem zoomIn_undrawn : Undrawn (CameraEffect.zoomIn multiplier frames) := by
  unfold CameraEffect.zoomIn
  refine zoomPan_undrawn ?_ centerX_avoids centerY_avoids
  simp (disch := decide) only [Avoids.append_iff, Binary64.avoids_fixed, avoids_int, and_true]
  decide

theorem punchZoom_undrawn {s : String} (h : CameraEffect.punchZoom multiplier frames = .ok s) :
    Undrawn s := by
  unfold CameraEffect.punchZoom at h
  obtain ⟨ramp, -, made⟩ := Outcome.bind_eq_ok.mp h
  obtain rfl := Except.ok.inj made
  refine zoomPan_undrawn ?_ centerX_avoids centerY_avoids
  simp (disch := decide) only [Avoids.append_iff, Binary64.avoids_fixed, avoids_int, and_true]
  decide

theorem verticalPan_undrawn : Undrawn (CameraEffect.verticalPan multiplier frames) := by
  unfold CameraEffect.verticalPan
  refine zoomPan_undrawn (by decide +kernel) centerX_avoids ?_
  simp (disch := decide) only [Avoids.append_iff, Binary64.avoids_fixed, avoids_int, centerY_avoids,
    and_true, true_and]
  decide

/-- The comma between the two filters of a crop stands open. -/
theorem centerCrop_eq {s : String} (h : CameraEffect.centerCrop multiplier = .ok s) :
    ∃ size corner, s = "scale=" ++ size ++ "," ++ ("crop=" ++ corner) ∧
      Avoids (',' :: signs) size ∧ Avoids (',' :: signs) corner := by
  obtain ⟨g, -, made⟩ := Outcome.bind_eq_ok.mp h
  obtain rfl := Except.ok.inj made
  refine ⟨toString g.width ++ ":" ++ toString g.height, CameraEffect.frameSize ":" ++ ":" ++
    toString g.x ++ ":" ++ toString g.y, ?_, ?_, ?_⟩
  · have comma : ",crop=" = "," ++ "crop=" := rfl
    rw [comma]
    simp only [String.append_assoc]
  all_goals
    simp (disch := decide) only [Avoids.append_iff, avoids_int, and_true]
    decide

theorem centerCrop_undrawn {s : String} (h : CameraEffect.centerCrop multiplier = .ok s) :
    Undrawn s := by
  obtain ⟨size, corner, rfl, plainSize, plainCorner⟩ := centerCrop_eq multiplier h
  have scale : Undrawn ("scale=" ++ size) := .of_named
    (Piece.plain (Avoids.append_iff.mpr ⟨by decide, plainSize⟩)) (by decide) (by decide)
  have crop : Undrawn ("crop=" ++ corner) := .of_named
    (Piece.plain (Avoids.append_iff.mpr ⟨by decide, plainCorner⟩)) (by decide) (by decide)
  exact scale.comma crop

theorem effect_undrawn {effect : Option Effect} {s : String}
    (h : CameraEffect.filter effect frames = .ok s) : s = "" ∨ Undrawn s := by
  cases effect with
  | none => exact .inl (Except.ok.inj h).symm
  | some e =>
      simp only [CameraEffect.filter] at h
      split at h
      · obtain rfl := Except.ok.inj h
        exact .inr (zoomIn_undrawn _ _)
      split at h
      · exact .inr (punchZoom_undrawn _ _ h)
      split at h
      · obtain rfl := Except.ok.inj h
        exact .inr (verticalPan_undrawn _ _)
      split at h
      · exact .inr (centerCrop_undrawn _ h)
      · exact .inl (Except.ok.inj h).symm

end Expressions

/-- What the generators make can be read: effects draw no text, and the overlay is one filter. -/
structure Parts.Legible (p : Parts) (text : Option String) (source : AudioSource) : Prop where
  hookEffect : p.hookEffect = "" ∨ Undrawn p.hookEffect
  demoEffect : p.demoEffect = "" ∨ Undrawn p.demoEffect
  shown : Overlay.Shown text → ∃ options, Piece p.overlay ("drawtext=" ++ options)
  hidden : ¬ Overlay.Shown text → p.overlay = ""
  combine : source ≠ .none → Filters p.combine [p.combine]

theorem because_eq_ok {ε α : Type} {cause : ε → Error} {x : Except ε α} {a : α} :
    because cause x = .ok a ↔ x = .ok a := by
  cases x <;> simp [because]

theorem combineFilter_read {source : AudioSource} {t : Timing} {filter : String}
    (h : Soundtrack.combineFilter source t = .ok filter) : Filters filter [filter] := by
  refine filters_plain ?_ (Soundtrack.combineFilter_nonempty h)
  cases source with
  | hook =>
      obtain rfl := Except.ok.inj h
      simp (disch := decide) only [Avoids.append_iff, Binary64.avoids_fixed, and_true]
      decide
  | demo =>
      simp only [Soundtrack.combineFilter] at h
      cases delay : (t.hookDuration * 1000).nearest with
      | error e => simp [delay, Except.map] at h
      | ok n =>
          rw [delay] at h
          obtain rfl := Except.ok.inj h
          simp (disch := decide) only [Avoids.append_iff, avoids_int, and_true]
          decide
  | both | none =>
      obtain rfl := Except.ok.inj h
      decide

theorem parts_legible {config : EditConfig} {hook demo : Clip} {text : Option String}
    {fonts : Overlay.Fonts} {p : Parts} (h : parts config hook demo text fonts = .ok p) :
    p.Legible text config.audioSource := by
  simp only [parts, Outcome.bind_eq_ok, because_eq_ok, Outcome.pure_eq] at h
  obtain ⟨t, -, overlay, drawn, hookFrames, -, hookEffect, moved, demoFrames, -, demoEffect, moved',
    combine, combined, made⟩ := h
  obtain rfl := Except.ok.inj made
  refine ⟨effect_undrawn _ moved, effect_undrawn _ moved', (Overlay.piece_filter drawn).1,
    (Overlay.piece_filter drawn).2, fun heard => ?_⟩
  rw [combinePart, if_neg heard, because_eq_ok] at combined
  exact combineFilter_read combined

/-- Without its text a program has the same parts. -/
theorem parts_without_text {config : EditConfig} {hook demo : Clip} {text : Option String}
    {fonts : Overlay.Fonts} {p : Parts} (h : parts config hook demo text fonts = .ok p) :
    parts config hook demo none {} = .ok { p with overlay := "" } := by
  simp only [parts, Outcome.bind_eq_ok, because_eq_ok, Outcome.pure_eq] at h ⊢
  obtain ⟨t, ht, overlay, -, hookFrames, hf, hookEffect, he, demoFrames, df, demoEffect, de, combine,
    hc, made⟩ := h
  obtain rfl := Except.ok.inj made
  exact ⟨t, ht, "", rfl, hookFrames, hf, hookEffect, he, demoFrames, df, demoEffect, de, combine, hc,
    rfl⟩

theorem pictureFilters_eq_append (start duration : Binary64) (trimmed : Bool)
    (effect overlay : String) : pictureFilters start duration trimmed effect overlay =
      pictureFilters start duration trimmed effect "" ++
        if overlay.isEmpty then [] else [overlay] := by
  simp [pictureFilters]

theorem pictureFilters_undrawn (start duration : Binary64) (trimmed : Bool) {effect : String}
    (h : effect = "" ∨ Undrawn effect) :
    ∀ f ∈ pictureFilters start duration trimmed effect "", Undrawn f := by
  have square : Undrawn "setsar=1" := .of_piece (Piece.plain (by decide)) (by decide) (by decide)
  intro f hf
  simp only [pictureFilters, List.mem_append, String.isEmpty_iff, if_true, List.not_mem_nil,
    or_false] at hf
  rcases hf with hn | he
  · exact normalize_undrawn start duration trimmed f hn
  · split at he
    · simp at he
    · rcases h with h | h
      · contradiction
      · simp only [List.mem_cons, List.not_mem_nil, or_false] at he
        rcases he with rfl | rfl
        · exact h
        · exact square

theorem clipFilters_read (hasAudio : Bool) (start duration : Binary64) :
    ∀ f ∈ Soundtrack.clipFilters hasAudio start duration, Filters f [f] := by
  intro f hf
  refine filters_plain ?_ (Soundtrack.clipFilters_nonempty hasAudio start duration f hf)
  simp only [Soundtrack.clipFilters] at hf
  split at hf
  · simp only [List.mem_cons, List.not_mem_nil, or_false] at hf
    rcases hf with rfl | rfl | rfl
    · simp (disch := decide) only [Avoids.append_iff, Binary64.avoids_fixed, and_true]
      decide
    · decide
    · decide
  · simp only [List.mem_cons, List.not_mem_nil, or_false] at hf
    rcases hf with rfl | rfl | rfl
    · decide
    · simp (disch := decide) only [Avoids.append_iff, Binary64.avoids_fixed, and_true]
      decide
    · decide

theorem engineKind?_avoids {kind name : String} (h : Blend.engineKind? kind = some name) :
    Avoids Overlay.marks name := by
  simp only [Blend.engineKind?, List.lookup_cons, List.lookup_nil] at h
  split at h
  · obtain rfl := Option.some.inj h
    decide
  split at h
  · obtain rfl := Option.some.inj h
    decide
  split at h
  · obtain rfl := Option.some.inj h
    decide
  · contradiction

theorem plan?_avoids {transition : Option Transition} {hookDuration : Binary64} {b : Blend}
    (h : Blend.plan? transition hookDuration = some b) : Avoids Overlay.marks b.kind := by
  simp only [Blend.plan?, Option.bind_eq_bind, Option.bind_eq_some_iff] at h
  obtain ⟨t, -, kind, known, made⟩ := h
  split at made
  · contradiction
  · obtain rfl := Option.some.inj made
    exact engineKind?_avoids known

theorem joinFilter_read (transition : Option Transition) (hookDuration : Binary64) :
    Filters (joinFilter (Blend.plan? transition hookDuration))
      [joinFilter (Blend.plan? transition hookDuration)] := by
  refine filters_plain ?_ (joinFilter_nonempty _)
  cases planned : Blend.plan? transition hookDuration with
  | none => decide
  | some b =>
      have kind : Avoids (',' :: signs) b.kind := (plan?_avoids planned).mono (by decide)
      unfold joinFilter Blend.filter
      simp (disch := decide) only [Avoids.append_iff, Binary64.avoids_fixed, kind, and_true]
      decide

theorem picture_readable {stream pad : String} (pads : Avoids signs stream ∧ Avoids signs pad)
    (start duration : Binary64) (trimmed : Bool) {effect overlay : String}
    (he : effect = "" ∨ Undrawn effect) (ho : overlay ≠ "" → ∃ read, Filters overlay read) :
    Chain.Readable ⟨[stream], pictureFilters start duration trimmed effect overlay, [pad]⟩ := by
  refine ⟨by simpa using pads, pictureFilters_ne_nil _ _ _ _ _, fun f hf => ?_⟩
  rw [pictureFilters_eq_append] at hf
  rcases List.mem_append.mp hf with h | h
  · obtain ⟨read, filters, -⟩ := pictureFilters_undrawn start duration trimmed he f h
    exact ⟨read, filters⟩
  · split at h
    · simp at h
    · obtain rfl := List.mem_singleton.mp h
      exact ho (by simpa using ‹¬ f.isEmpty = true›)

theorem clipChain_readable {stream pad : String} (pads : Avoids signs stream ∧ Avoids signs pad)
    (hasAudio : Bool) (start duration : Binary64) :
    (Soundtrack.clipChain stream hasAudio start duration pad).Readable := by
  refine ⟨?_, ?_, fun f hf => ⟨[f], clipFilters_read hasAudio start duration f hf⟩⟩
  · cases hasAudio with
    | true => simpa [Soundtrack.clipChain] using pads
    | false => simpa [Soundtrack.clipChain] using pads.2
  · cases hasAudio <;> simp [Soundtrack.clipChain, Soundtrack.clipFilters]

theorem clipChains_readable (source : AudioSource) (hookHasAudio demoHasAudio : Bool) (t : Timing) :
    ∀ c ∈ Soundtrack.clipChains source hookHasAudio demoHasAudio t, c.Readable := by
  cases source with
  | none => simp [Soundtrack.clipChains]
  | hook =>
      simp only [Soundtrack.clipChains, List.forall_mem_singleton]
      exact clipChain_readable (by decide) ..
  | demo =>
      simp only [Soundtrack.clipChains, List.forall_mem_singleton]
      exact clipChain_readable (by decide) ..
  | both =>
      simp only [Soundtrack.clipChains, List.forall_mem_cons]
      exact ⟨clipChain_readable (by decide) .., clipChain_readable (by decide) .., by simp⟩

theorem combineChains_readable {source : AudioSource} {filter : String}
    (h : source ≠ .none → Filters filter [filter]) :
    ∀ c ∈ Soundtrack.combineChains source filter, c.Readable := by
  intro c hc
  rw [Soundtrack.combineChains] at hc
  split at hc
  · simp at hc
  · obtain rfl := List.mem_singleton.mp hc
    have pads : ∀ pad ∈ Soundtrack.clipPads source ++ [outputAudio], Avoids signs pad := by
      cases source <;> decide
    exact ⟨pads, by simp, by simpa using ⟨_, h ‹_›⟩⟩

namespace Parts

variable {p : Parts} {text : Option String} {config : EditConfig}

theorem Legible.readable (h : p.Legible text config.audioSource) (hook demo : Clip) :
    ∀ c ∈ p.hookChain config :: p.laterChains config hook demo, c.Readable := by
  have overlay : p.overlay ≠ "" → ∃ read, Filters p.overlay read := by
    intro nonempty
    by_cases shown : Overlay.Shown text
    · obtain ⟨options, piece⟩ := h.shown shown
      exact ⟨_, piece.filters (by simp)⟩
    · exact absurd (h.hidden shown) nonempty
  have first : (p.hookChain config).Readable :=
    picture_readable (by decide) _ _ _ h.hookEffect overlay
  have second : (p.demoChain config).Readable :=
    picture_readable (by decide) _ _ _ h.demoEffect (absurd rfl)
  have pads : ∀ pad ∈ ["v0", "v1"] ++ [outputVideo], Avoids signs pad := by decide
  have join : Chain.Readable ⟨["v0", "v1"], [joinFilter (p.blend config)], [outputVideo]⟩ :=
    ⟨pads, by simp, by simpa using ⟨_, joinFilter_read _ _⟩⟩
  simp only [laterChains, List.forall_mem_cons, List.forall_mem_append]
  exact ⟨first, second, clipChains_readable _ _ _ _, join, combineChains_readable h.combine⟩

theorem Legible.hookChain_undrawn (h : p.Legible text config.audioSource) (hidden : p.overlay = "") :
    ∀ f ∈ (p.hookChain config).unquoted.filters, drawsText f = false := by
  intro f hf
  obtain ⟨g, hg, hf⟩ := List.mem_flatMap.mp hf
  rw [hookChain, hidden] at hg
  obtain ⟨read, filters, other⟩ := pictureFilters_undrawn _ _ _ h.hookEffect g hg
  exact other f (filters.reads ▸ hf)

theorem hookChain_unquoted (p : Parts) (config : EditConfig) : (p.hookChain config).unquoted =
    ⟨["0:v"], (hookChain { p with overlay := "" } config).unquoted.filters ++
      if p.overlay = "" then [] else filtersOf p.overlay, ["v0"]⟩ := by
  simp only [hookChain, Chain.unquoted]
  rw [pictureFilters_eq_append, List.flatMap_append]
  by_cases h : p.overlay = ""
  · simp [h]
  · simp [h]

end Parts

/-- The graph of a program is read as the chains that were added, in order and with their pads. A
text changes nothing of it but the end of the first chain, where it makes one filter that draws it if
it has anything to show. -/
theorem read_compile (config : EditConfig) (hook demo : Clip) :
    ∃ (filters : List String) (later : List Chain),
      (∀ f ∈ filters, drawsText f = false) ∧
      ∀ files text options p, compile config files hook demo text options = .ok p →
        ∃ a drawn, assemble config hook demo text options.fonts = .ok a ∧
          read? p.graphText = some (a.graph.chains.map Chain.unquoted) ∧
          a.graph.chains.map Chain.unquoted = ⟨["0:v"], filters ++ drawn, ["v0"]⟩ :: later ∧
          (Overlay.Shown text →
            (∃ f, drawn = [f] ∧ drawsText f = true) ∧ p.requiredFilters = ["drawtext"]) ∧
          (¬ Overlay.Shown text → drawn = [] ∧ p.requiredFilters = []) := by
  cases made : parts config hook demo none {} with
  | error e =>
      refine ⟨[], [], by simp, fun files text options p h => ?_⟩
      obtain ⟨r, parts, -⟩ := compile_eq_ok.mp h
      have := made.symm.trans (parts_without_text parts)
      contradiction
  | ok q =>
      have silent := parts_legible made
      refine ⟨(q.hookChain config).unquoted.filters,
        (q.laterChains config hook demo).map Chain.unquoted, ?_, fun files text options p h => ?_⟩
      · exact silent.hookChain_undrawn (silent.hidden (by simp [Overlay.Shown]))
      · obtain ⟨r, parts, -, rfl⟩ := compile_eq_ok.mp h
        obtain ⟨counters, assembled⟩ := assemble_eq config hook demo text options.fonts
        rw [parts] at assembled
        obtain rfl := Except.ok.inj (made.symm.trans (parts_without_text parts))
        have legible := parts_legible parts
        refine ⟨_, if r.overlay = "" then [] else filtersOf r.overlay, assembled, ?_, ?_, ?_, ?_⟩
        · exact read?_intercalate (by simp) (legible.readable hook demo)
        · rw [List.map_cons, Parts.hookChain_unquoted]
          rfl
        · intro shown
          obtain ⟨drawn, piece⟩ := legible.shown shown
          have filters := piece.filters (by simp)
          have nonempty : r.overlay ≠ "" := fun empty => filters.some_symbol (by rw [empty]; rfl)
          have draws : drawsText ("drawtext=" ++ drawn) = true := by
            rw [drawsText_append (by decide)]
            decide
          simp [Parts.program, nonempty, filters.reads, draws]
        · intro hidden
          simp [Parts.program, legible.hidden hidden]

theorem read_compile_marks : ∃ p filters f later,
    compile {} ⟨"h", "d", "o"⟩ ⟨5, true⟩ ⟨5, true⟩ (some "'it's; [x],\\") {} = .ok p ∧
      read? p.graphText = some (⟨["0:v"], filters ++ [f], ["v0"]⟩ :: later) ∧
      drawsText f = true ∧ p.requiredFilters = ["drawtext"] := by
  have succeeds : (compile {} ⟨"h", "d", "o"⟩ ⟨5, true⟩ ⟨5, true⟩ (some "'it's; [x],\\") {}).isOk =
      true := by decide +kernel
  obtain ⟨filters, later, -, each⟩ := read_compile {} ⟨5, true⟩ ⟨5, true⟩
  cases compiled : compile {} ⟨"h", "d", "o"⟩ ⟨5, true⟩ ⟨5, true⟩ (some "'it's; [x],\\") {} with
  | error e =>
      rw [compiled] at succeeds
      contradiction
  | ok p =>
      obtain ⟨a, drawn, -, read, chains, shown, -⟩ := each _ _ _ _ compiled
      obtain ⟨⟨f, rfl, draws⟩, required⟩ := shown ⟨_, rfl, 'i', by decide, by decide⟩
      exact ⟨p, filters, f, later, rfl, read.trans (congrArg some chains), draws, required⟩

end Program
end Splice
