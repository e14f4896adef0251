import Splice.CameraEffect
import Splice.Proofs.Binary64.Accuracy

/-! # The geometry of a crop

The sizes of a crop are even, so that the frame is cut from the very middle; and a larger multiplier never
makes a smaller picture, because each step on the way from it to the sizes keeps the order.
-/

namespace Splice.CameraEffect

open Binary64

/-! ## The scale -/

/-- How much a crop enlarges the frame. -/
def scale (multiplier : Binary64) : Binary64 := 1 + cropSpan * multiplier

theorem cropSpan_spec : cropSpan.isFinite = true ∧ 0 ≤ cropSpan.value := by
  obtain ⟨units, fits, made, -⟩ := ofDecimal_eq_finite Nat.one_pos false (by decide : 1 ≤ 10 ^ 1)
  have made : cropSpan = .finite false units fits := made
  rw [made, value_eq, signedUnits, if_neg Bool.false_ne_true, Int.cast_natCast]
  exact ⟨rfl, div_nonneg (Nat.cast_nonneg _) unitsPerOne_cast_pos.le⟩

theorem scale_mono {m n : Binary64} (hm : (scale m).isFinite = true) (hn : (scale n).isFinite = true)
    (h : m ≤ n) : scale m ≤ scale n := by
  obtain ⟨one, product⟩ := isFinite_of_add hm
  obtain ⟨-, product'⟩ := isFinite_of_add hn
  obtain ⟨finite, nonneg⟩ := cropSpan_spec
  have products := mul_le_mul_of_le (isFinite_of_mul product).2 (isFinite_of_mul product').2 finite nonneg h
  exact (isNearest_add one product).mono (isNearest_add one product')
    (add_le_add_right ((le_iff_value_le product product').mp products) _)

/-! ## Even lengths -/

section Lengths

variable {length : Nat} {factor factor' : Binary64} {n n' : Int}

theorem evenLength_eq_ok : evenLength length factor = .ok n ↔
    ∃ k, (ofInt length * factor / 2).nearest = .ok k ∧ 2 * k = n := by
  rw [evenLength, Outcome.map_eq_ok]

theorem even_of_evenLength (made : evenLength length factor = .ok n) : Even n := by
  obtain ⟨k, -, rfl⟩ := evenLength_eq_ok.mp made
  exact even_two_mul k

theorem isFinite_of_evenLength (made : evenLength length factor = .ok n) :
    (ofInt length * factor).isFinite = true := by
  obtain ⟨k, rounded, -⟩ := evenLength_eq_ok.mp made
  exact isFinite_of_div (isFinite_of_toWhole rounded)

/-- A scaled length is made even if it is finite. -/
theorem exists_evenLength (finite : (ofInt length * factor).isFinite = true) :
    ∃ n, evenLength length factor = .ok n := by
  have half : (ofInt length * factor / 2).isFinite = true :=
    isFinite_div_ofNat (by decide) (by decide) finite
  obtain ⟨k, rounded⟩ := exists_toWhole _ half
  exact ⟨2 * k, evenLength_eq_ok.mpr ⟨k, rounded, rfl⟩⟩

theorem value_length (small : length ≤ 2 ^ 53) : (ofInt length).value = length := value_ofNat small

/-- A scaled length is finite if a longer one is, as it is between that one and zero. -/
theorem isFinite_of_longer {longer : Nat} (small : longer ≤ 2 ^ 53) (h : length ≤ longer)
    (finite : (ofInt longer * factor).isFinite = true) : (ofInt length * factor).isFinite = true := by
  obtain ⟨zero, zero_value⟩ := zero_spec
  have none := isNearest_value zero
  have whole : (ofInt length).isFinite = true := isFinite_ofNat (h.trans small)
  have factors := isFinite_of_mul finite
  have shorter := isNearest_mul whole factors.2
  have longer_one := isNearest_mul factors.1 factors.2
  rw [zero_value] at none
  rw [value_length (h.trans small)] at shorter
  rw [value_length small] at longer_one
  have lengths : (length : ℚ) ≤ longer := Nat.cast_le.mpr h
  have nonneg : (0 : ℚ) ≤ length := Nat.cast_nonneg length
  rcases le_total 0 factor.value with up | down
  · have least := none.mono shorter (mul_nonneg nonneg up)
    have most := shorter.mono longer_one (mul_le_mul_of_nonneg_right lengths up)
    exact isFinite_of_between zero finite least most
  · have least := longer_one.mono shorter (mul_le_mul_of_nonpos_right lengths down)
    have most := shorter.mono none (mul_nonpos_of_nonneg_of_nonpos nonneg down)
    exact isFinite_of_between finite zero least most

theorem evenLength_mono (small : length ≤ 2 ^ 53) (made : evenLength length factor = .ok n)
    (made' : evenLength length factor' = .ok n') (h : factor ≤ factor') : n ≤ n' := by
  have product := isFinite_of_evenLength made
  have product' := isFinite_of_evenLength made'
  obtain ⟨k, rounded, rfl⟩ := evenLength_eq_ok.mp made
  obtain ⟨k', rounded', rfl⟩ := evenLength_eq_ok.mp made'
  have nonneg : 0 ≤ (ofInt length).value := by
    rw [value_length small]
    exact Nat.cast_nonneg length
  have two : 0 < (2 : Binary64).value := by
    rw [value_ofNat (by decide)]
    exact Nat.cast_pos.mpr Nat.two_pos
  have products := mul_le_mul_of_le (isFinite_of_mul product).2 (isFinite_of_mul product').2
    (isFinite_of_mul product).1 nonneg h
  have halves := div_le_div_of_le product product' (isFinite_ofNat (by decide)) two products
  exact Int.mul_le_mul_of_nonneg_left (nearest_mono rounded rounded' halves) (by decide)

end Lengths

/-! ## The geometry -/

section Geometry

variable {m n : Binary64} {g g' : CropGeometry}

theorem cropGeometry_eq_ok : cropGeometry m = .ok g ↔
    ∃ width, evenLength frameWidth (scale m) = .ok width ∧
      ∃ height, evenLength frameHeight (scale m) = .ok height ∧
        ⟨width, height, Int.fdiv (width - frameWidth) 2, Int.fdiv (height - frameHeight) 2⟩ = g := by
  simp only [cropGeometry, Outcome.bind_eq_ok, Outcome.pure_eq, Except.ok.injEq]
  rfl

/-- There is a crop just if the scaled height, the longer side, is finite. -/
theorem exists_cropGeometry_iff :
    (∃ g, cropGeometry m = .ok g) ↔ (ofInt frameHeight * scale m).isFinite = true := by
  constructor
  · rintro ⟨g, made⟩
    obtain ⟨-, -, height, tall, -⟩ := cropGeometry_eq_ok.mp made
    exact isFinite_of_evenLength tall
  · intro finite
    have shorter : (ofInt frameWidth * scale m).isFinite = true :=
      isFinite_of_longer (by decide) (by decide) finite
    obtain ⟨width, wide⟩ := exists_evenLength shorter
    obtain ⟨height, tall⟩ := exists_evenLength finite
    exact ⟨_, cropGeometry_eq_ok.mpr ⟨width, wide, height, tall, rfl⟩⟩

theorem isFinite_scale (made : cropGeometry m = .ok g) : (scale m).isFinite = true :=
  (isFinite_of_mul (exists_cropGeometry_iff.mp ⟨g, made⟩)).2

/-- The corner of an even length that has half of the surplus on either side. -/
theorem corner_centred {length : Int} (even : Even length) {frame : Int} (whole : Even frame) :
    length - 2 * Int.fdiv (length - frame) 2 = frame := by
  obtain ⟨k, rfl⟩ := even
  obtain ⟨f, rfl⟩ := whole
  rw [Int.fdiv_eq_ediv_of_nonneg _ (by decide)]
  omega

theorem corner_mono {length length' : Int} (h : length ≤ length') (frame : Int) :
    Int.fdiv (length - frame) 2 ≤ Int.fdiv (length' - frame) 2 := by
  rw [Int.fdiv_eq_ediv_of_nonneg _ (by decide), Int.fdiv_eq_ediv_of_nonneg _ (by decide)]
  omega

/-- The sizes and corners of a geometry are at most those of another one. -/
structure CropGeometry.Below (g g' : CropGeometry) : Prop where
  width : g.width ≤ g'.width
  height : g.height ≤ g'.height
  x : g.x ≤ g'.x
  y : g.y ≤ g'.y

theorem cropGeometry_mono (made : cropGeometry m = .ok g) (made' : cropGeometry n = .ok g') (h : m ≤ n) :
    g.Below g' := by
  have scales := scale_mono (isFinite_scale made) (isFinite_scale made') h
  obtain ⟨width, wide, height, tall, rfl⟩ := cropGeometry_eq_ok.mp made
  obtain ⟨width', wide', height', tall', rfl⟩ := cropGeometry_eq_ok.mp made'
  have widths := evenLength_mono (by decide) wide wide' scales
  have heights := evenLength_mono (by decide) tall tall' scales
  exact ⟨widths, heights, corner_mono widths _, corner_mono heights _⟩

end Geometry

theorem cropGeometry_zero : cropGeometry 0 = .ok ⟨frameWidth, frameHeight, 0, 0⟩ := by
  decide +kernel

/-- A crop has even sizes and its frame in the middle, to the pixel. No corner is negative unless the
multiplier is, and a larger multiplier makes no size and no corner smaller. There is no crop just if the
scaled height is not finite. -/
theorem crop_centred (m : Binary64) :
    ((∃ g, cropGeometry m = .ok g) ↔ (ofInt frameHeight * scale m).isFinite = true) ∧
      ∀ g, cropGeometry m = .ok g →
        Even g.width ∧ Even g.height ∧ g.width - 2 * g.x = frameWidth ∧ g.height - 2 * g.y = frameHeight ∧
          (0 ≤ m → 0 ≤ g.x ∧ 0 ≤ g.y) ∧ ∀ n g', cropGeometry n = .ok g' → m ≤ n → g.Below g' := by
  refine ⟨exists_cropGeometry_iff, fun g made => ?_⟩
  obtain ⟨width, wide, height, tall, shape⟩ := cropGeometry_eq_ok.mp made
  have evenWidth := even_of_evenLength wide
  have evenHeight := even_of_evenLength tall
  refine ⟨by rwa [← shape], by rwa [← shape], by rw [← shape, corner_centred evenWidth (by decide)],
    by rw [← shape, corner_centred evenHeight (by decide)], fun nonneg => ?_,
    fun n g' made' => cropGeometry_mono made made'⟩
  have above := cropGeometry_mono cropGeometry_zero made nonneg
  exact ⟨above.x, above.y⟩

/-- A negative multiplier that turns the picture over, and the strong crop. -/
theorem crop_centred_mirrored : ∃ g, cropGeometry (-20.5) = .ok g ∧ g.width = -1134 ∧ g.x = -1107 ∧
    g.width - 2 * g.x = frameWidth ∧ g.Below ⟨1242, 2208, 81, 144⟩ := by
  have strong : cropGeometry 1.5 = .ok ⟨1242, 2208, 81, 144⟩ := by decide +kernel
  have mirrored : cropGeometry (-20.5) = .ok ⟨-1134, -2016, -1107, -1968⟩ := by decide +kernel
  obtain ⟨-, -, width, -, -, mono⟩ := (crop_centred (-20.5)).2 _ mirrored
  exact ⟨_, mirrored, rfl, rfl, width, mono 1.5 _ strong (by decide +kernel)⟩

end Splice.CameraEffect
