import Mathlib.Order.Interval.Set.Defs
import Splice.Proofs.CameraEffect.Zoom

/-! # The place of a pan

A pan looks through a window that is smaller than the picture, and moves it down. It starts and ends
before the window meets an edge, moves with every frame up to the last one, and is as far from the top
after some frames as it is from the bottom that many frames before the end.
-/

namespace Splice.CameraEffect

open FilterGraph Program Binary64

/-! ## Expressions of a pan -/

/-- What the names of a pan stand for at a frame. -/
def panFrame (zoom height x : ℚ) (name : String) : Option ℚ :=
  [("on", x), ("ih", height), ("zoom", zoom)].lookup name

/-- The upper edge of the window at a frame of a picture of some height, as a filter says it. -/
def topAt? (text : String) (height x : ℚ) : Option ℚ := do
  let zoom ← zoomAt? text x
  let top ← expression? "y" text
  top.eval (panFrame zoom height x)

theorem expression?_top {z x y : String} (hz : Avoids Overlay.kept z) (hx : Avoids Overlay.kept x)
    (hy : Avoids Overlay.kept y) : expression? "y" (zoomPan z x y) = Expression.ofText? y := by
  rw [expression?, optionsNamed_zoomPan "zoompan" hz hx hy, if_pos rfl]
  rfl

open Lexeme in
theorem pan_expression {way : Binary64} {w : ℚ} {n : Int} (positive : 0 ≤ n)
    (wayText : Lexes (way.fixed 4 ++ "*") [.number w, .sign '*']) :
    Expression.ofText? (centerY ++ "+ih*" ++ way.fixed 4 ++ "*(2*min(on/" ++ toString n ++ ",1)-1)") =
      some (.sum
        (.difference (.quotient (.name "ih") (.number 2))
          (.quotient (.quotient (.name "ih") (.name "zoom")) (.number 2)))
        (.product (.product (.name "ih") (.number w))
          (.difference (.product (.number 2)
            (.least (.quotient (.name "on") (.number n)) (.number 1))) (.number 1)))) := by
  have center : Lexes (centerY ++ "+ih*") [.name "ih", .sign '/', .number 2, .sign '-', .sign '(',
      .name "ih", .sign '/', .name "zoom", .sign '/', .number 2, .sign ')', .sign '+', .name "ih",
      .sign '*'] := .plain (c := '*') rfl rfl (by decide)
  have twice : Lexes "(2*min(on/" [.sign '(', .number 2, .sign '*', .name "min", .sign '(', .name "on",
      .sign '/'] := .plain (c := '/') rfl rfl (by decide)
  have count : Lexes (toString n ++ ",") [.number n, .sign ','] := .whole positive rfl rfl
  have closed : Lexes "1)-1)" [.number 1, .sign ')', .sign '-', .number 1, .sign ')'] :=
    .plain (c := ')') rfl rfl (by decide)
  have all := (((center.append wayText).append twice).append count).append closed
  have same : "*(2*min(on/" = "*" ++ "(2*min(on/" ∧ ",1)-1)" = "," ++ "1)-1)" := ⟨rfl, rfl⟩
  rw [same.1, same.2]
  simp only [String.append_assoc] at all ⊢
  rw [Expression.ofText?, all.eq]
  rfl

/-! ## The travel -/

/-- The upper edge of a window that keeps ten of eleven parts of a height. It travels by `way`, a share
of the height, to either side of the middle, and rests from frame `n` on. -/
def travel (way height n x : ℚ) : ℚ := height * (1 / 22 + way * (2 * min (x / n) 1 - 1))

section Travel

variable {way height n x : ℚ}

theorem travel_before (positive : 0 < n) (h : x ≤ n) :
    travel way height n x = height * (1 / 22 + way * (2 * (x / n) - 1)) := by
  rw [travel, min_eq_left ((div_le_one positive).mpr h)]

theorem travel_after (positive : 0 < n) (h : n ≤ x) :
    travel way height n x = height * (1 / 22 + way) := by
  rw [travel, min_eq_right ((one_le_div positive).mpr h)]
  ring

/-- A window that travels by less than its margin stays within the picture. -/
theorem travel_within (tall : 0 < height) (positive : 0 < n) (moves : 0 < way) (short : way < 1 / 22)
    (h : 0 ≤ x) : 0 < travel way height n x ∧ travel way height n x < height * (1 / 11) := by
  have share : 0 ≤ min (x / n) 1 := le_min (div_nonneg h positive.le) zero_le_one
  have most : min (x / n) 1 ≤ 1 := min_le_right _ _
  have down : -way ≤ way * (2 * min (x / n) 1 - 1) := by nlinarith
  have up : way * (2 * min (x / n) 1 - 1) ≤ way := by nlinarith
  constructor
  · exact mul_pos tall (by linarith)
  · exact mul_lt_mul_of_pos_left (by linarith) tall

theorem travel_strictMonoOn (tall : 0 < height) (positive : 0 < n) (moves : 0 < way) :
    StrictMonoOn (travel way height n) (Set.Iic n) := by
  intro a ha b hb less
  rw [travel_before positive ha, travel_before positive hb]
  have share : a / n < b / n := (div_lt_div_iff_of_pos_right positive).mpr less
  have further : way * (2 * (a / n) - 1) < way * (2 * (b / n) - 1) :=
    mul_lt_mul_of_pos_left (by linarith) moves
  exact mul_lt_mul_of_pos_left (by linarith) tall

/-- The places before and after the middle are mirrored. -/
theorem travel_mirror (positive : 0 < n) (from_start : 0 ≤ x) (to_end : x ≤ n) :
    travel way height n x + travel way height n (n - x) = height * (1 / 11) := by
  rw [travel_before positive to_end, travel_before positive (sub_le_self n from_start), sub_div,
    div_self positive.ne']
  ring

end Travel

/-! ## The law of pans -/

/-- The way of a pan of some strength to either side, as a share of the height. -/
def way (multiplier : Binary64) : ℚ := min (multiplier.value / 20) (227 / 5000)

/-- The ways are written exactly, and they are shorter than the margin of a window. -/
theorem ways_exact : ∀ m ∈ [(0.5 : Binary64), 1, 1.5],
    Lexeme.ofChars? ((Binary64.min (panTravel * m) panTravelLimit).fixed 4 ++ "*").toList =
        some [.number (way m), .sign '*'] ∧
      0 < way m ∧ way m < 1 / 22 := by
  decide +kernel

theorem panZoom_exact : Expression.ofText? panZoom.text = some (.number (11 / 10)) := by
  have read : Lexeme.ofChars? panZoom.text.toList = some [.number (11 / 10)] := by decide +kernel
  rw [Expression.ofText?, read]
  rfl

/-- A pan zooms steadily, and its window travels. -/
theorem verticalPan_travels (e : Effect) {n : Int} (positive : 0 < n) (height x : ℚ) :
    zoomAt? (verticalPan e.multiplier n) x = some (11 / 10) ∧
      topAt? (verticalPan e.multiplier n) height x = some (travel (way e.multiplier) height n x) := by
  have plain : Avoids Overlay.kept panZoom.text := by decide +kernel
  have zoom : zoomAt? (verticalPan e.multiplier n) x = some (11 / 10) := by
    rw [zoomAt?, verticalPan, expression?_zoom plain (by decide) (pan_plain _ n), panZoom_exact]
    rfl
  refine ⟨zoom, ?_⟩
  have ends : ((Binary64.min (panTravel * e.multiplier) panTravelLimit).fixed 4 ++ "*").toList.getLast? =
      some '*' := by
    rw [String.toList_append]
    exact List.getLast?_concat
  have read := pan_expression positive.le
    (.plain ends rfl (ways_exact e.multiplier (multiplier_mem e)).1)
  have divisor : (n : ℚ) ≠ 0 := Int.cast_ne_zero.mpr positive.ne'
  rw [topAt?, zoom, verticalPan, expression?_top plain (by decide) (pan_plain _ n), read]
  simp [Expression.eval, panFrame, List.lookup_cons, divisor, travel]
  ring

/-- A pan zooms by 1.1, so that a margin is left above and below the window. The window stays within the
picture, moves with every frame up to the last one, where it comes to rest, and moves in the same way
from either end. -/
theorem pan_travels {e : Effect} (pans : e.kind = "vertical-pan") {n : Int} (many : 30 ≤ n) {height : ℚ}
    (tall : 0 < height) :
    ∃ text, filter (some e) n = .ok text ∧ (∀ x, zoomAt? text x = some (11 / 10)) ∧
      ∃ top : ℚ → ℚ, (∀ x, topAt? text height x = some (top x)) ∧
        (∀ x, 0 ≤ x → 0 ≤ top x ∧ top x ≤ height - height / (11 / 10)) ∧
        StrictMonoOn top (Set.Icc 0 n) ∧ (∀ x : ℚ, n ≤ x → top x = top n) ∧
        ∀ x : ℚ, 0 ≤ x → x ≤ n → top x + top (n - x) = height - height / (11 / 10) := by
  have positive : 0 < n := by omega
  have divisor : (0 : ℚ) < n := Int.cast_pos.mpr positive
  obtain ⟨-, moves, short⟩ := ways_exact e.multiplier (multiplier_mem e)
  have margin : height - height / (11 / 10) = height * (1 / 11) := by ring
  have made : filter (some e) n = .ok (verticalPan e.multiplier n) := by
    rw [filter, if_neg (by rw [pans]; decide), if_neg (by rw [pans]; decide), if_pos pans]
  rw [margin]
  refine ⟨_, made, fun x => (verticalPan_travels e positive height x).1, travel (way e.multiplier) height n,
    fun x => (verticalPan_travels e positive height x).2, fun x h => ?_, ?_, fun x h => ?_,
    fun x => travel_mirror divisor⟩
  · obtain ⟨below, above⟩ := travel_within tall divisor moves short h
    exact ⟨below.le, above.le⟩
  · exact (travel_strictMonoOn tall divisor moves).mono Set.Icc_subset_Iic_self
  · rw [travel_after divisor h, travel_after divisor le_rfl]

/-- The strong pan over the least count of frames, on a picture of 1100 lines: it is in the middle at half
time, and its last place is as far below the middle as its first one is above it. -/
theorem pan_travels_strong : ∃ text first last, filter (some ⟨"vertical-pan", "strong"⟩) 30 = .ok text ∧
    topAt? text 1100 15 = some 50 ∧ topAt? text 1100 0 = some first ∧ topAt? text 1100 30 = some last ∧
    topAt? text 1100 31 = some last ∧ 0 ≤ first ∧ first < 50 ∧ first + last = 100 := by
  have tall : (0 : ℚ) < 1100 := by norm_num
  have pans : (Effect.mk "vertical-pan" "strong").kind = "vertical-pan" := rfl
  obtain ⟨text, made, -, top, agrees, within, moves, rests, mirrors⟩ :=
    pan_travels pans (le_refl 30) tall
  have half := mirrors 15 (by norm_num) (by norm_num)
  have ends := mirrors 0 (by norm_num) (by norm_num)
  have early : top 0 < top 15 := moves ⟨by norm_num, by norm_num⟩ ⟨by norm_num, by norm_num⟩ (by norm_num)
  norm_num at half ends
  have middle : top 15 = 50 := by linarith
  refine ⟨text, top 0, top 30, made, by rw [agrees, middle], agrees 0, agrees 30, ?_,
    (within 0 le_rfl).1, middle ▸ early, ends⟩
  rw [agrees, rests 31 (by norm_num)]
  rfl

end Splice.CameraEffect
