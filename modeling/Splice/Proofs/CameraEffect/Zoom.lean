import Mathlib.Algebra.Order.Field.Basic
import Mathlib.Tactic.Linarith
import Mathlib.Tactic.Positivity
import Splice.Proofs.Binary64.Accuracy
import Splice.Proofs.CameraEffect.Expression
import Splice.Proofs.Program.Outcome

/-! # The zoom of each frame

Both zooms are one rise: a line from 1 at the first frame to the peak, which then holds. The line of a
zoom-in ends at the last frame, that of a punch at the end of its ramp, which is within the clip.
-/

namespace Splice.CameraEffect

open FilterGraph Program Binary64

/-! ## Expressions of a filter -/

/-- The expression that a zoom has for one of its options. -/
def expression? (option text : String) : Option Expression := do
  let options ← (optionsNamed "zoompan" (filtersOf text)).head?.join
  Expression.ofText? (← options.lookup option)

/-- What the names of a zoom stand for at a frame. -/
def frame (x : ℚ) (name : String) : Option ℚ := if name = "on" then some x else none

theorem expression?_zoom {z x y : String} (hz : Avoids Overlay.kept z) (hx : Avoids Overlay.kept x)
    (hy : Avoids Overlay.kept y) : expression? "z" (zoomPan z x y) = Expression.ofText? z := by
  rw [expression?, optionsNamed_zoomPan "zoompan" hz hx hy, if_pos rfl]
  rfl

/-- The zoom of a frame, as a filter says it. -/
def zoomAt? (text : String) (x : ℚ) : Option ℚ := (expression? "z" text).bind (·.eval (frame x))

section Texts

open Lexeme

variable {span peak : Binary64} {n : Int} {s p : ℚ} (positive : 0 ≤ n)
  (spanText : Lexes (span.fixed 4 ++ "*") [.number s, .sign '*'])
  (peakText : Lexes (peak.fixed 4 ++ ")") [.number p, .sign ')'])

include positive spanText peakText

theorem zoomIn_expression :
    Expression.ofText? ("min(1+" ++ span.fixed 4 ++ "*on/" ++ toString n ++ "," ++ peak.fixed 4 ++ ")") =
      some (.least (.sum (.number 1) (.quotient (.product (.number s) (.name "on")) (.number n)))
        (.number p)) := by
  have opened : Lexes "min(1+" [.name "min", .sign '(', .number 1, .sign '+'] :=
    .plain (c := '+') rfl rfl (by decide)
  have on : Lexes "on/" [.name "on", .sign '/'] := .plain (c := '/') rfl rfl (by decide)
  have count : Lexes (toString n ++ ",") [.number n, .sign ','] := .whole positive rfl rfl
  have all := (((opened.append spanText).append on).append count).append peakText
  have same : "*on/" = "*" ++ "on/" := rfl
  rw [same]
  simp only [String.append_assoc] at all ⊢
  rw [Expression.ofText?, all.eq]
  rfl

theorem punch_expression :
    Expression.ofText? ("if(lte(on," ++ toString n ++ "),1+" ++ span.fixed 4 ++ "*on/" ++ toString n ++
      "," ++ peak.fixed 4 ++ ")") =
      some (.choice (.atMost (.name "on") (.number n))
        (.sum (.number 1) (.quotient (.product (.number s) (.name "on")) (.number n))) (.number p)) := by
  have opened : Lexes "if(lte(on," [.name "if", .sign '(', .name "lte", .sign '(', .name "on", .sign ','] :=
    .plain (c := ',') rfl rfl (by decide)
  have compared : Lexes (toString n ++ ")") [.number n, .sign ')'] := .whole positive rfl rfl
  have one : Lexes ",1+" [.sign ',', .number 1, .sign '+'] := .plain (c := '+') rfl rfl (by decide)
  have on : Lexes "on/" [.name "on", .sign '/'] := .plain (c := '/') rfl rfl (by decide)
  have count : Lexes (toString n ++ ",") [.number n, .sign ','] := .whole positive rfl rfl
  have all := ((((((opened.append compared).append one).append spanText).append on).append count).append
    peakText)
  have same : "),1+" = ")" ++ ",1+" ∧ "*on/" = "*" ++ "on/" := ⟨rfl, rfl⟩
  rw [same.1, same.2]
  simp only [String.append_assoc] at all ⊢
  rw [Expression.ofText?, all.eq]
  rfl

end Texts

/-! ## The rise -/

/-- A line from 1 at zero to its peak at `r`, which then holds. -/
def rise (span r x : ℚ) : ℚ := min (1 + span * x / r) (1 + span)

section Rise

variable {span r x : ℚ}

theorem rise_before (positive : 0 < r) (rises : 0 ≤ span) (h : x ≤ r) : rise span r x = 1 + span * x / r := by
  apply min_eq_left
  have share : span * x / r ≤ span := by
    rw [div_le_iff₀ positive]
    exact mul_le_mul_of_nonneg_left h rises
  linarith

theorem rise_after (positive : 0 < r) (rises : 0 ≤ span) (h : r ≤ x) : rise span r x = 1 + span := by
  apply min_eq_right
  have share : span ≤ span * x / r := by
    rw [le_div_iff₀ positive]
    exact mul_le_mul_of_nonneg_left h rises
  linarith

theorem rise_mono (positive : 0 < r) (rises : 0 ≤ span) : Monotone (rise span r) := by
  intro a b h
  apply min_le_min_right
  have share : span * a / r ≤ span * b / r := by
    gcongr
  linarith

end Rise

/-! ## Counts of frames -/

/-- A count of frames is a number, and not below a second's worth. -/
theorem fits_frameCount {duration : Binary64} {n : Int} (counted : Timing.frameCount duration = .ok n) :
    30 ≤ n ∧ Fits (n.natAbs * unitsPerOne) := by
  obtain ⟨k, floored, rfl⟩ := Outcome.map_eq_ok.mp counted
  refine ⟨Int.le_max_left _ _, ?_⟩
  rcases Int.le_total k Timing.framesPerSecond with few | many
  · rw [Int.max_eq_left few]
    exact fits_whole (by decide)
  rw [Int.max_eq_right many]
  obtain ⟨negative, m, fits, product⟩ := exists_of_isFinite (isFinite_of_toWhole floored)
  rw [product, floor, toWhole, Except.ok.injEq] at floored
  rw [Int.fdiv_eq_ediv_of_nonneg _ (Int.natCast_nonneg _)] at floored
  cases negative with
  | false =>
      have whole : k = (m / unitsPerOne : Nat) := floored.symm
      rw [whole, Int.natAbs_natCast]
      exact fits_wholePart fits
  | true =>
      have low : signedUnits true m ≤ 0 := Int.neg_nonpos_of_nonneg (Int.natCast_nonneg m)
      have least : signedUnits true m / (unitsPerOne : Int) ≤ 0 / (unitsPerOne : Int) :=
        Int.ediv_le_ediv (Int.natCast_pos.mpr unitsPerOne_pos) low
      rw [floored, Int.zero_ediv] at least
      exact absurd (many.trans least) (by decide)

/-- The ramp of a punch is within the clip. -/
theorem punchRamp_within {n : Int} (positive : 0 < n) (fits : Fits (n.natAbs * unitsPerOne)) :
    ∃ r, punchRamp n = .ok r ∧ 1 ≤ r ∧ r ≤ n := by
  obtain ⟨k, shareFits, share, small⟩ := ofDecimal_eq_finite Nat.one_pos false (by decide : 2 ≤ 10 ^ 1)
  have share : punchRampShare = .finite false k shareFits := share
  obtain ⟨product, productFits, made, below⟩ := round_eq_finite fits unitsPerOne_pos
    (Nat.mul_le_mul_left (n.natAbs * unitsPerOne) small) false
  have count : ofInt n = .finite false (n.natAbs * unitsPerOne) fits := by
    rw [ofInt_eq_whole fits, decide_eq_false (by omega)]
  refine ⟨_, by rw [punchRamp, count, share, finite_mul_finite, Bool.bne_false, made]; rfl,
    Int.le_max_left _ _, Int.max_le.mpr ⟨positive, ?_⟩⟩
  show Int.fdiv (signedUnits false product) unitsPerOne ≤ n
  rw [Int.fdiv_eq_ediv_of_nonneg _ (Int.natCast_nonneg _)]
  apply Int.ediv_le_of_le_mul (Int.natCast_pos.mpr unitsPerOne_pos)
  have size : (n.natAbs : Int) = n := Int.natAbs_of_nonneg positive.le
  calc (product : Int) ≤ (n.natAbs * unitsPerOne : Nat) := Int.ofNat_le.mpr below
    _ = n * unitsPerOne := by rw [Int.natCast_mul, size]

/-! ## The law of zooms -/

/-- The extra zoom of an effect at its peak. -/
def span (e : Effect) : ℚ := (if e.kind = "zoom-in" then 3 / 20 else 1 / 5) * e.multiplier.value

theorem multiplier_mem (e : Effect) : e.multiplier ∈ [(0.5 : Binary64), 1, 1.5] := by
  unfold Effect.multiplier
  split
  · exact List.mem_cons_self
  · split
    · simp
    · simp

/-- The extra zooms and the peaks are written exactly. -/
theorem spans_exact : ∀ share ∈ [(zoomInSpan, (3 / 20 : ℚ)), (punchSpan, 1 / 5)],
    ∀ m ∈ [(0.5 : Binary64), 1, 1.5],
      Lexeme.ofChars? ((share.1 * m).fixed 4 ++ "*").toList =
          some [.number (share.2 * m.value), .sign '*'] ∧
        Lexeme.ofChars? ((1 + share.1 * m).fixed 4 ++ ")").toList =
          some [.number (1 + share.2 * m.value), .sign ')'] ∧
        0 ≤ share.2 * m.value := by
  decide +kernel

open Lexeme in
theorem lexes_spans (e : Effect) (share : Binary64) (q : ℚ)
    (known : (share, q) ∈ [(zoomInSpan, (3 / 20 : ℚ)), (punchSpan, 1 / 5)]) :
    Lexes ((share * e.multiplier).fixed 4 ++ "*") [.number (q * e.multiplier.value), .sign '*'] ∧
      Lexes ((1 + share * e.multiplier).fixed 4 ++ ")")
        [.number (1 + q * e.multiplier.value), .sign ')'] ∧
      0 ≤ q * e.multiplier.value := by
  obtain ⟨spanText, peakText, rises⟩ := spans_exact _ known e.multiplier (multiplier_mem e)
  have ends (s : String) (mark : Char) (close : String) (single : close.toList = [mark]) :
      (s ++ close).toList.getLast? = some mark := by
    rw [String.toList_append, single, List.getLast?_concat]
  exact ⟨.plain (ends _ '*' "*" rfl) rfl spanText, .plain (ends _ ')' ")" rfl) rfl peakText, rises⟩

/-- A zoom-in rises to the last frame. -/
theorem zoomIn_rises {e : Effect} (kind : e.kind = "zoom-in") {n : Int} (positive : 0 < n) (x : ℚ) :
    zoomAt? (zoomIn e.multiplier n) x = some (rise (span e) n x) := by
  obtain ⟨spanText, peakText, -⟩ := lexes_spans e zoomInSpan (3 / 20) (by simp)
  have read := zoomIn_expression positive.le spanText peakText
  have divisor : (n : ℚ) ≠ 0 := Int.cast_ne_zero.mpr positive.ne'
  rw [zoomAt?, zoomIn, expression?_zoom (zoomIn_plain _ _ n) (by decide) (by decide), read, rise, span,
    if_pos kind]
  simp [Expression.eval, frame, divisor]

/-- A punch rises to the end of its ramp. -/
theorem punchZoom_rises {e : Effect} (kind : e.kind = "punch-zoom") {n r : Int}
    (ramped : punchRamp n = .ok r) (positive : 0 < r) :
    ∃ text, punchZoom e.multiplier n = .ok text ∧ ∀ x, zoomAt? text x = some (rise (span e) r x) := by
  obtain ⟨spanText, peakText, rises⟩ := lexes_spans e punchSpan (1 / 5) (by simp)
  have read := punch_expression positive.le spanText peakText
  have divisor : (0 : ℚ) < r := Int.cast_pos.mpr positive
  refine ⟨_, by rw [punchZoom, ramped]; rfl, fun x => ?_⟩
  rw [zoomAt?, expression?_zoom (punch_plain _ _ r) (by decide) (by decide), read, span,
    if_neg (by rw [kind]; decide)]
  rcases le_or_gt x r with before | after
  · rw [rise_before divisor rises before]
    simp [Expression.eval, frame, divisor.ne', before]
  · rw [rise_after divisor rises after.le]
    simp [Expression.eval, frame, after]

theorem span_nonneg (e : Effect) : 0 ≤ span e := by
  unfold span
  split
  · exact (lexes_spans e zoomInSpan _ (by simp)).2.2
  · exact (lexes_spans e punchSpan _ (by simp)).2.2

/-- A zoom begins at 1, never falls, and holds at its peak from the last frame on. A punch holds from the
end of its ramp on, where the line that it rises by meets the peak. -/
theorem zoom_rises {e : Effect} (zooms : e.kind = "zoom-in" ∨ e.kind = "punch-zoom") {duration : Binary64}
    {n : Int} (counted : Timing.frameCount duration = .ok n) :
    ∃ text, filter (some e) n = .ok text ∧ ∃ zoom : ℚ → ℚ, (∀ x, zoomAt? text x = some (zoom x)) ∧
      zoom 0 = 1 ∧ Monotone zoom ∧ (∀ x, zoom x ≤ 1 + span e) ∧
      (∀ x : ℚ, n ≤ x → zoom x = 1 + span e) ∧
      (e.kind = "punch-zoom" → ∃ r, punchRamp n = .ok r ∧ 1 ≤ r ∧ r ≤ n ∧
        (∀ x : ℚ, x ≤ r → zoom x = 1 + span e * x / r) ∧ ∀ x : ℚ, r ≤ x → zoom x = 1 + span e) := by
  obtain ⟨many, fits⟩ := fits_frameCount counted
  have positive : 0 < n := by omega
  have rises := span_nonneg e
  -- the rise to a frame that is not after the last one
  have risen {r : Int} (some_frame : 1 ≤ r) (within : r ≤ n) :
      rise (span e) r 0 = 1 ∧ Monotone (rise (span e) r) ∧ (∀ x, rise (span e) r x ≤ 1 + span e) ∧
        (∀ x, (n : ℚ) ≤ x → rise (span e) r x = 1 + span e) ∧
        (∀ x, x ≤ (r : ℚ) → rise (span e) r x = 1 + span e * x / r) ∧
        ∀ x, (r : ℚ) ≤ x → rise (span e) r x = 1 + span e := by
    have divisor : (0 : ℚ) < r := Int.cast_pos.mpr some_frame
    have last : (r : ℚ) ≤ n := Int.cast_le.mpr within
    refine ⟨?_, rise_mono divisor rises, fun x => min_le_right _ _, fun x h => ?_, fun x h => ?_,
      fun x h => ?_⟩
    · rw [rise_before divisor rises divisor.le, mul_zero, zero_div, add_zero]
    · exact rise_after divisor rises (last.trans h)
    · exact rise_before divisor rises h
    · exact rise_after divisor rises h
  rcases zooms with kind | kind
  · have made : filter (some e) n = .ok (zoomIn e.multiplier n) := by rw [filter, if_pos kind]
    obtain ⟨first, mono, below, last, -, -⟩ := risen (r := n) positive le_rfl
    refine ⟨_, made, rise (span e) n, zoomIn_rises kind positive, first, mono, below, last, ?_⟩
    intro punch
    exact absurd (kind.symm.trans punch) (by decide)
  · obtain ⟨r, ramped, some_frame, within⟩ := punchRamp_within positive fits
    obtain ⟨text, punched, zoom⟩ := punchZoom_rises kind ramped some_frame
    have made : filter (some e) n = .ok text := by
      rw [filter, if_neg (by rw [kind]; decide), if_pos kind, punched]
    obtain ⟨first, mono, below, last, line, hold⟩ := risen some_frame within
    exact ⟨text, made, rise (span e) r, zoom, first, mono, below, last,
      fun _ => ⟨r, ramped, some_frame, within, line, hold⟩⟩

/-- The strong punch of a clip of five seconds is at its peak from frame 30 on. -/
theorem zoom_rises_punch : ∃ text, filter (some ⟨"punch-zoom", "strong"⟩) 150 = .ok text ∧
    zoomAt? text 0 = some 1 ∧ zoomAt? text 15 = some (23 / 20) ∧
    ∀ x, 30 ≤ x → zoomAt? text x = some (13 / 10) := by
  have five : Timing.frameCount 5 = .ok 150 := by decide +kernel
  have half : span ⟨"punch-zoom", "strong"⟩ = 3 / 10 := by decide +kernel
  obtain ⟨text, made, zoom, agrees, first, -, -, -, punch⟩ :=
    zoom_rises (e := ⟨"punch-zoom", "strong"⟩) (.inr rfl) five
  obtain ⟨r, ramped, -, -, line, hold⟩ := punch rfl
  have thirty : punchRamp 150 = .ok 30 := by decide +kernel
  obtain rfl : r = 30 := Except.ok.inj (ramped.symm.trans thirty)
  rw [half] at line hold
  refine ⟨text, made, by rw [agrees, first], ?_, fun x late => ?_⟩
  · rw [agrees, line 15 (by norm_num)]
    norm_num
  · rw [agrees, hold x (by exact_mod_cast late)]
    norm_num

end Splice.CameraEffect
