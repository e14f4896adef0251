import Splice.Proofs.Program.Options

/-! # The expressions of effects

A zoom or a pan is an expression of the number of the output frame, which it divides by a count of
frames or compares with one. Reading these counts tells how long an effect takes, whatever else is in
its expressions.
-/

namespace Splice

namespace Program

open FilterGraph

/-- What the number of the output frame is measured against in an expression: the numbers that it is
divided by or compared with. -/
def frameNumbers : List Char → List String
  | [] => []
  | c :: rest =>
    if c = 'o' ∧ (rest.take 2 = ['n', '/'] ∨ rest.take 2 = ['n', ',']) then
      String.ofList ((rest.drop 2).takeWhile isNumeral) :: frameNumbers rest
    else frameNumbers rest

theorem frameNumbers_skip {s : List Char} (h : 'o' ∉ s) (rest : List Char) :
    frameNumbers (s ++ rest) = frameNumbers rest := by
  induction s with
  | nil => rfl
  | cons c s ih =>
      simp only [List.mem_cons, not_or] at h
      rw [List.cons_append, frameNumbers, if_neg fun same => h.1 same.1.symm, ih h.2]

/-- A piece of an expression measures the frame's number against some numbers, whatever follows. -/
def Measures (piece : String) (numbers : List String) : Prop :=
  ∀ rest, frameNumbers (piece.toList ++ rest) = numbers ++ frameNumbers rest

namespace Measures

theorem append {s t : String} {x y : List String} (hs : Measures s x) (ht : Measures t y) :
    Measures (s ++ t) (x ++ y) := by
  intro rest
  rw [String.toList_append, List.append_assoc, hs, ht, List.append_assoc]

theorem plain {s : String} (h : 'o' ∉ s.toList) : Measures s [] := frameNumbers_skip h

/-- A number is passed over together with the sign after it, which is none that the name of the frame's
number is followed by. -/
theorem number {s : String} (h : Avoids ['/', ','] s) {close : String} {d : Char}
    (single : close.toList = [d]) (hd : d ∉ ['o', 'n', '/', ',']) : Measures (s ++ close) [] := by
  intro rest
  rw [String.toList_append, single, List.append_assoc, List.singleton_append]
  simp only [List.mem_cons, List.not_mem_nil, or_false, not_or] at hd
  have apart : ∀ c ∈ s.toList, c ≠ '/' ∧ c ≠ ',' := fun c hc => by simpa using h c hc
  generalize s.toList = cs at apart
  induction cs with
  | nil => simp [frameNumbers, hd]
  | cons c cs ih =>
      have inside : ∀ c ∈ cs, c ≠ '/' ∧ c ≠ ',' := fun c hc => apart c (List.mem_cons_of_mem _ hc)
      have unmarked : ¬ ((cs ++ d :: rest).take 2 = ['n', '/'] ∨
          (cs ++ d :: rest).take 2 = ['n', ',']) := by
        match cs with
        | [] => simp [hd]
        | [x] => simp [hd]
        | x :: y :: cs => simp [inside y (by simp)]
      rw [List.cons_append, frameNumbers, if_neg fun same => unmarked same.2, ih inside]

/-- A count that the frame's number is divided by or compared with. -/
theorem count {start close : String} {m d : Char} (begins : start.toList = ['o', 'n', m])
    (hm : m = '/' ∨ m = ',') (n : Int) (single : close.toList = [d]) (hd : isNumeral d = false) :
    Measures (start ++ toString n ++ close) [toString n] := by
  intro rest
  have digits := not_mem_int (c := 'o') (by decide) (by decide) n
  have count : ((toString n).toList ++ d :: rest).takeWhile isNumeral = (toString n).toList := by
    rw [List.takeWhile_append_of_pos (numeral_int n)]
    simp only [List.takeWhile_cons, hd, Bool.false_eq_true, if_false, List.append_nil]
  have noName : 'o' ∉ 'n' :: m :: ((toString n).toList ++ [d]) := by
    have close : 'o' ≠ d := by
      rintro rfl
      exact absurd hd (by decide)
    have mark : 'o' ≠ m := by rcases hm with rfl | rfl <;> decide
    simp only [List.mem_cons, List.mem_append, List.not_mem_nil, or_false, not_or]
    exact ⟨by decide, mark, digits, close⟩
  have later := frameNumbers_skip noName rest
  have marked : ['n', m] = ['n', '/'] ∨ ['n', m] = ['n', ','] := by simpa using hm
  simp only [String.toList_append, begins, single, List.append_assoc, List.cons_append,
    List.nil_append] at later ⊢
  rw [frameNumbers, if_pos ⟨rfl, marked⟩, later, List.drop_succ_cons, List.drop_succ_cons,
    List.drop_zero, count, String.ofList_toList]

theorem eq {s : String} {numbers : List String} (h : Measures s numbers) :
    frameNumbers s.toList = numbers := by
  simpa [frameNumbers] using h []

end Measures

/-- What the number of the output frame is measured against in the options of a filter. -/
def measures (options : List (String × String)) : List String :=
  options.flatMap fun o => frameNumbers o.2.toList

/-- What an effect over a count of frames measures the number of a frame against: all of them, or those
of its ramp. -/
def pace (effect : Option Effect) (frames : Int) : List (List String) :=
  match effect with
  | none => []
  | some e =>
    if e.kind = "zoom-in" ∨ e.kind = "vertical-pan" then [[toString frames]]
    else if e.kind = "punch-zoom" then
      match CameraEffect.punchRamp frames with
      | .ok ramp => [[toString ramp, toString ramp]]
      | .error _ => []
    else []

/-- The options of a zoom, three of them expressions. -/
def zoomOptions (z x y : String) : List Overlay.DrawOption :=
  [⟨"z", z, true⟩, ⟨"x", x, true⟩, ⟨"y", y, true⟩, { name := "d", value := "1" },
    { name := "s", value := CameraEffect.frameSize "x" }, { name := "fps", value := "30" }]

theorem zoomOptions_tidy (z x y : String) : ∀ o ∈ zoomOptions z x y, o.Tidy := by
  simp only [zoomOptions, List.forall_mem_cons]
  exact ⟨.of_quoted (by decide) z, .of_quoted (by decide) x, .of_quoted (by decide) y,
    .of_value (by decide) (by decide), .of_value (by decide) (by decide),
    .of_value (by decide) (by decide), by simp⟩

theorem zoomPan_eq {z x y : String} (hz : Avoids Overlay.kept z) (hx : Avoids Overlay.kept x)
    (hy : Avoids Overlay.kept y) : CameraEffect.zoomPan z x y =
      "zoompan" ++ "=" ++ ":".intercalate ((zoomOptions z x y).map Overlay.DrawOption.text) := by
  unfold CameraEffect.zoomPan zoomOptions
  generalize CameraEffect.frameSize "x" = size
  apply String.toList_injective
  simp [Overlay.DrawOption.text, Overlay.escape_plain, hz, hx, hy]

/-- The three expressions of a zoom are read as they were made. -/
theorem optionsNamed_zoomPan (name : String) {z x y : String} (hz : Avoids Overlay.kept z)
    (hx : Avoids Overlay.kept x) (hy : Avoids Overlay.kept y) :
    optionsNamed name (filtersOf (CameraEffect.zoomPan z x y)) =
      if "zoompan" = name then [some ((zoomOptions z x y).map fun o => (o.name, o.value))]
      else [] := by
  rw [zoomPan_eq hz hx hy]
  exact optionsNamed_options name "zoompan" (by decide) (by simp [zoomOptions]) (zoomOptions_tidy z x y)

theorem measures_zoom (z x y : String) :
    measures ((zoomOptions z x y).map fun o => (o.name, o.value)) =
      frameNumbers z.toList ++ frameNumbers x.toList ++ frameNumbers y.toList := by
  have others : frameNumbers "1".toList ++ (frameNumbers (CameraEffect.frameSize "x").toList ++
      frameNumbers "30".toList) = [] := by
    decide
  simp only [measures, zoomOptions, List.map_cons, List.map_nil, List.flatMap_cons,
    List.flatMap_nil, List.append_nil, others, List.append_assoc]

theorem measures_center : Measures CameraEffect.centerX [] ∧ Measures CameraEffect.centerY [] := by
  constructor
  all_goals
    intro rest
    simp [CameraEffect.centerX, CameraEffect.centerY, frameNumbers]

section Expressions

variable (span peak : Binary64) (n : Int)

theorem measures_fixed (close : String) {d : Char} (single : close.toList = [d])
    (hd : d ∉ ['o', 'n', '/', ',']) : Measures (span.fixed 4 ++ close) [] :=
  .number (Binary64.avoids_fixed (by decide) 4 span) single hd

/-! The signs of an option do not occur in the expressions, so that they need no backslash. -/

theorem zoomIn_plain : Avoids Overlay.kept ("min(1+" ++ span.fixed 4 ++ "*on/" ++ toString n ++
    "," ++ peak.fixed 4 ++ ")") := by
  simp (disch := decide) only [Avoids.append_iff, Binary64.avoids_fixed, avoids_int, and_true]
  decide

theorem punch_plain : Avoids Overlay.kept ("if(lte(on," ++ toString n ++ "),1+" ++ span.fixed 4 ++
    "*on/" ++ toString n ++ "," ++ peak.fixed 4 ++ ")") := by
  simp (disch := decide) only [Avoids.append_iff, Binary64.avoids_fixed, avoids_int, and_true]
  decide

theorem pan_plain : Avoids Overlay.kept (CameraEffect.centerY ++ "+ih*" ++ span.fixed 4 ++
    "*(2*min(on/" ++ toString n ++ ",1)-1)") := by
  simp (disch := decide) only [Avoids.append_iff, Binary64.avoids_fixed, avoids_int, and_true]
  decide

theorem measures_zoomIn : Measures ("min(1+" ++ span.fixed 4 ++ "*on/" ++ toString n ++ "," ++
    peak.fixed 4 ++ ")") [toString n] := by
  have opened : Measures "min(1+" [] := .plain (by decide)
  have rise := measures_fixed span "*" rfl (by decide)
  have divided : Measures ("on/" ++ toString n ++ ",") [toString n] :=
    .count rfl (.inl rfl) n rfl (by decide)
  have all := ((opened.append rise).append divided).append
    (measures_fixed peak ")" rfl (by decide))
  have same : "*on/" = "*" ++ "on/" := rfl
  rw [same]
  simp only [String.append_assoc, List.nil_append, List.append_nil] at all ⊢
  exact all

theorem measures_punch : Measures ("if(lte(on," ++ toString n ++ "),1+" ++ span.fixed 4 ++ "*on/" ++
    toString n ++ "," ++ peak.fixed 4 ++ ")") [toString n, toString n] := by
  have opened : Measures "if(lte(" [] := .plain (by decide)
  have compared : Measures ("on," ++ toString n ++ ")") [toString n] :=
    .count rfl (.inr rfl) n rfl (by decide)
  have one : Measures ",1+" [] := .plain (by decide)
  have rise := measures_fixed span "*" rfl (by decide)
  have divided : Measures ("on/" ++ toString n ++ ",") [toString n] :=
    .count rfl (.inl rfl) n rfl (by decide)
  have all := ((((opened.append compared).append one).append rise).append divided).append
    (measures_fixed peak ")" rfl (by decide))
  have same : "if(lte(on," = "if(lte(" ++ "on," ∧ "),1+" = ")" ++ ",1+" ∧ "*on/" = "*" ++ "on/" :=
    ⟨rfl, rfl, rfl⟩
  rw [same.1, same.2.1, same.2.2]
  simp only [String.append_assoc, List.nil_append, List.append_nil, List.singleton_append] at all ⊢
  exact all

theorem measures_pan : Measures (CameraEffect.centerY ++ "+ih*" ++ span.fixed 4 ++ "*(2*min(on/" ++
    toString n ++ ",1)-1)") [toString n] := by
  have height : Measures "+ih*" [] := .plain (by decide)
  have way := measures_fixed span "*" rfl (by decide)
  have twice : Measures "(2*min(" [] := .plain (by decide)
  have divided : Measures ("on/" ++ toString n ++ ",") [toString n] :=
    .count rfl (.inl rfl) n rfl (by decide)
  have closed : Measures "1)-1)" [] := .plain (by decide)
  have all := ((((measures_center.2.append height).append way).append twice).append divided).append
    closed
  have same : "*(2*min(on/" = "*" ++ ("(2*min(" ++ "on/") ∧ ",1)-1)" = "," ++ "1)-1)" := ⟨rfl, rfl⟩
  rw [same.1, same.2]
  simp only [String.append_assoc, List.nil_append, List.append_nil] at all ⊢
  exact all

end Expressions

section Filters

variable {name : String}

theorem optionsNamed_square (other : "setsar" ≠ name) :
    optionsNamed name (filtersOf "setsar=1") = [] :=
  optionsNamed_other name "setsar" (by decide) (by decide) (by decide) other

/-- The filters that an effect adds to a picture. -/
def effectFilters (effect : String) : List String :=
  if effect.isEmpty then [] else [effect, "setsar=1"]

theorem optionsIn_zoomPan (other : "setsar" ≠ name) {z x y : String} (hz : Avoids Overlay.kept z)
    (hx : Avoids Overlay.kept x) (hy : Avoids Overlay.kept y) :
    optionsIn name (effectFilters (CameraEffect.zoomPan z x y)) =
      if "zoompan" = name then [some ((zoomOptions z x y).map fun o => (o.name, o.value))]
      else [] := by
  have nonempty : (CameraEffect.zoomPan z x y).isEmpty = false := by
    rw [zoomPan_eq hz hx hy]
    simp
  simp [effectFilters, nonempty, optionsNamed_zoomPan name hz hx hy, optionsNamed_square other]

theorem optionsIn_centerCrop (other : name ∉ ["scale", "crop", "setsar"]) {multiplier : Binary64}
    {s : String} (h : CameraEffect.centerCrop multiplier = .ok s) :
    optionsIn name (effectFilters s) = [] := by
  simp only [List.mem_cons, List.not_mem_nil, or_false, not_or, ← ne_eq] at other
  obtain ⟨size, corner, rfl, plainSize, plainCorner⟩ := centerCrop_eq multiplier h
  have scale : Piece ("scale=" ++ size) ("scale" ++ "=" ++ size) :=
    Piece.plain (Avoids.append_iff.mpr ⟨by decide, plainSize⟩)
  have crop : Piece ("crop=" ++ corner) ("crop" ++ "=" ++ corner) :=
    Piece.plain (Avoids.append_iff.mpr ⟨by decide, plainCorner⟩)
  have both := optionsNamed_comma name (scale.filters (by simp)) (crop.filters (by simp))
  rw [optionsNamed_of_piece name scale (by decide), optionsNamed_of_piece name crop (by decide),
    if_neg other.1.symm, if_neg other.2.1.symm] at both
  simp [effectFilters, both, optionsNamed_square other.2.2.symm]

/-- The names of the filters that effects are made of. -/
def effectNames : List String := ["zoompan", "scale", "crop", "setsar"]

/-- An effect has no filter of another name, and measures the number of a frame against the count that
it was made for. -/
theorem optionsIn_effect {effect : Option Effect} {n : Int} {s : String}
    (h : CameraEffect.filter effect n = .ok s) :
    (∀ name ∉ effectNames, optionsIn name (effectFilters s) = []) ∧
      (optionsIn "zoompan" (effectFilters s)).map (Option.map measures) =
        (pace effect n).map some := by
  have hx : Avoids Overlay.kept CameraEffect.centerX := by decide
  have hy : Avoids Overlay.kept CameraEffect.centerY := by decide
  have centerX := measures_center.1.eq
  have centerY := measures_center.2.eq
  -- a zoom by expressions of which one is known to measure
  have zoomed {z x y : String} (hz : Avoids Overlay.kept z) (hx : Avoids Overlay.kept x)
      (hy : Avoids Overlay.kept y) {numbers : List String}
      (all : frameNumbers z.toList ++ frameNumbers x.toList ++ frameNumbers y.toList = numbers) :
      (∀ name ∉ effectNames, optionsIn name (effectFilters (CameraEffect.zoomPan z x y)) = []) ∧
        (optionsIn "zoompan" (effectFilters (CameraEffect.zoomPan z x y))).map
          (Option.map measures) = [some numbers] := by
    refine ⟨fun name other => ?_, ?_⟩
    · simp only [effectNames, List.mem_cons, List.not_mem_nil, or_false, not_or, ← ne_eq] at other
      rw [optionsIn_zoomPan other.2.2.2.symm hz hx hy, if_neg other.1.symm]
    · rw [optionsIn_zoomPan (by decide) hz hx hy, if_pos rfl, List.map_singleton, Option.map_some,
        measures_zoom, all]
  cases effect with
  | none =>
      obtain rfl := Except.ok.inj h
      exact ⟨fun _ _ => rfl, rfl⟩
  | some e =>
      simp only [CameraEffect.filter] at h
      split at h
      case isTrue kind =>
        obtain rfl := Except.ok.inj h
        have paced : (pace (some e) n).map some = [some [toString n]] := by simp [pace, kind]
        rw [paced]
        exact zoomed (zoomIn_plain _ _ n) hx hy
          (by rw [(measures_zoomIn _ _ n).eq, centerX, centerY]; rfl)
      split at h
      case isTrue kind =>
        obtain ⟨ramp, ramped, made⟩ := Outcome.bind_eq_ok.mp h
        obtain rfl := Except.ok.inj made
        have paced : (pace (some e) n).map some = [some [toString ramp, toString ramp]] := by
          simp [pace, kind, ramped]
        rw [paced]
        exact zoomed (punch_plain _ _ ramp) hx hy
          (by rw [(measures_punch _ _ ramp).eq, centerX, centerY]; rfl)
      split at h
      case isTrue kind =>
        obtain rfl := Except.ok.inj h
        have paced : (pace (some e) n).map some = [some [toString n]] := by simp [pace, kind]
        have fixed : frameNumbers CameraEffect.panZoom.text.toList = [] := by decide +kernel
        rw [paced]
        exact zoomed (by decide +kernel) hx (pan_plain _ n)
          (by rw [fixed, centerX, (measures_pan _ n).eq]; rfl)
      split at h
      case isTrue kind =>
        have paced : pace (some e) n = [] := by simp [pace, kind]
        rw [paced]
        refine ⟨fun name other => optionsIn_centerCrop ?_ h, ?_⟩
        · exact fun hm => other (List.mem_cons_of_mem _ hm)
        · rw [optionsIn_centerCrop (by decide) h]
          rfl
      case isFalse zoomIn punch pan crop =>
        obtain rfl := Except.ok.inj h
        exact ⟨fun _ _ => rfl, by simp [pace, zoomIn, punch, pan, effectFilters]⟩

end Filters

end Program
end Splice
