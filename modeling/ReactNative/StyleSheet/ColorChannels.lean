import Mathlib.Tactic.Positivity
import ReactNative.StyleSheet.NormalizeColor

/-! What the branches of `normalizeColor` shift and combine are bytes, so no channel reaches into
the next one. -/
namespace ReactNative.NormalizeColor

/-- The channels as the bytes of a number, from the highest. -/
structure IsPacked (color : ℕ) (r g b a : ℤ) : Prop where
  bytes : ∀ channel ∈ [r, g, b, a], 0 ≤ channel ∧ channel ≤ 255
  sum : color = r * 2 ^ 24 + g * 2 ^ 16 + b * 2 ^ 8 + a
  recovered : (color >>> 24 : ℕ) = r ∧ (color >>> 16 &&& 0xff : ℕ) = g ∧
    (color >>> 8 &&& 0xff : ℕ) = b ∧ (color &&& 0xff : ℕ) = a

/-- The formula of CSS for the channels red (0), green (8) and blue (4), of a hue in turns. -/
def cssChannel (h s l : ℚ) (n : ℚ) : ℚ :=
  let k := 12 * Int.fract ((n + 12 * h) / 12)
  l - s * min l (1 - l) * max (-1) (min (min (k - 3) (9 - k)) 1)

/-! ### Ranges -/

theorem round_mem {x : ℚ} (least : 0 ≤ x) (most : x ≤ 1) :
    0 ≤ round (x * 255) ∧ round (x * 255) ≤ 255 := by
  refine ⟨Int.floor_nonneg.2 (by linarith), Int.lt_add_one_iff.1 (Int.floor_lt.2 ?_)⟩
  linarith

theorem parse255_mem (str : Text) : 0 ≤ (parse255 str).getD 0 ∧ (parse255 str).getD 0 ≤ 255 := by
  unfold parse255
  cases parseInt str with
  | none => simp
  | some =>
    simp only [Option.bind_eq_bind, Option.bind_some]
    split_ifs <;> simp only [Option.getD_some] <;> omega

theorem parse1_mem (str : Text) : 0 ≤ parse1 str ∧ parse1 str ≤ 255 := by
  unfold parse1
  simp only
  split_ifs with below above
  · simp
  · simp
  · exact round_mem (not_lt.1 below) (not_lt.1 above)

theorem parsePercentage_mem (str : Text) : 0 ≤ parsePercentage str ∧ parsePercentage str ≤ 1 := by
  unfold parsePercentage
  simp only
  split_ifs with below above
  · simp
  · simp
  · constructor <;> linarith

theorem remainder_mem {x y : ℚ} (positive : 0 < y) :
    -y < remainder x y ∧ remainder x y < y ∧ (0 ≤ x → 0 ≤ remainder x y) := by
  have isMul : x = y * (x / y) := by field_simp
  unfold remainder
  split_ifs with negative
  · have := Int.le_ceil (x / y)
    have := Int.ceil_lt_add_one (x / y)
    refine ⟨by nlinarith, by nlinarith, fun nonneg => ?_⟩
    exact absurd (div_nonneg nonneg positive.le) (not_le.2 negative)
  · have := Int.floor_le (x / y)
    have := Int.lt_floor_add_one (x / y)
    exact ⟨by nlinarith, by nlinarith, fun _ => by nlinarith⟩

theorem parse360_mem (str : Text) : 0 ≤ parse360 str ∧ parse360 str < 1 := by
  have inner := @remainder_mem (parseFloat str) 360 (by norm_num)
  have outer := @remainder_mem (remainder (parseFloat str) 360 + 360) 360 (by norm_num)
  have := outer.2.2 (by linarith [inner.1])
  unfold parse360
  constructor <;> linarith

/-! ### Hues -/

/-- How far the channel is from the lightness, in the four parts of the circle that `hue2rgb`
tells apart. -/
def excursion (t : ℚ) : ℚ :=
  if t < 1 / 6 then 12 * t - 1 else if t < 1 / 2 then 1
  else if t < 2 / 3 then 7 - 12 * t else -1

variable {h s l t n : ℚ}

theorem cssChannel_eq (turns : ℤ) (least : 0 ≤ t) (most : t ≤ 1)
    (isHue : n + 12 * h = 12 * t - 4 + 12 * turns) :
    cssChannel h s l n = l + s * min l (1 - l) * excursion t := by
  have isFract : Int.fract ((n + 12 * h) / 12) = if t < 1 / 3 then t + 2 / 3 else t - 1 / 3 := by
    split_ifs
    · refine Int.fract_eq_iff.2 ⟨by linarith, by linarith, turns - 1, ?_⟩
      push_cast
      linarith
    · exact Int.fract_eq_iff.2 ⟨by linarith, by linarith, turns, by linarith⟩
  have isFactor : max (-1) (min (min (12 * Int.fract ((n + 12 * h) / 12) - 3)
      (9 - 12 * Int.fract ((n + 12 * h) / 12))) 1) = -excursion t := by
    unfold excursion
    grind
  unfold cssChannel
  simp only [isFactor]
  ring

theorem hue2rgb_of_mem {m : ℚ} (least : 0 ≤ t) (most : t ≤ 1) :
    hue2rgb (l - m) (l + m) t = l + m * excursion t := by
  unfold hue2rgb excursion
  simp only [not_lt.2 least, not_lt.2 most, if_false]
  split_ifs <;> ring

theorem hue2rgb_eq (least : -1 ≤ t) (most : t < 2)
    (isHue : n + 12 * h = 12 * t - 4 ∨ n + 12 * h = 12 * t + 8) :
    hue2rgb (l - s * min l (1 - l)) (l + s * min l (1 - l)) t = cssChannel h s l n := by
  obtain ⟨turned, turns, nonneg, atMost, isTurned, sameColor⟩ : ∃ turned : ℚ, ∃ turns : ℤ,
      0 ≤ turned ∧ turned ≤ 1 ∧ t = turned + turns ∧ ∀ p q, hue2rgb p q t = hue2rgb p q turned := by
    rcases lt_or_ge t 0 with below | nonneg
    · refine ⟨t + 1, -1, by linarith, by linarith, by simp, fun p q => ?_⟩
      simp [hue2rgb, below, not_lt.2 (show 0 ≤ t + 1 by linarith)]
    rcases lt_or_ge 1 t with above | atMost
    · refine ⟨t - 1, 1, by linarith, by linarith, by simp, fun p q => ?_⟩
      simp [hue2rgb, above, not_lt.2 nonneg, not_lt.2 above.le, not_lt.2 (show t - 1 ≤ 1 by linarith)]
    · exact ⟨t, 0, nonneg, atMost, by simp, fun _ _ => rfl⟩
  rw [sameColor, hue2rgb_of_mem nonneg atMost]
  rcases isHue with isHue | isHue
  · rw [cssChannel_eq turns nonneg atMost (by rw [isHue, isTurned]; ring)]
  · rw [cssChannel_eq (turns + 1) nonneg atMost (by rw [isHue, isTurned]; push_cast; ring)]

theorem cssChannel_mem {h s l n : ℚ} (saturation : 0 ≤ s ∧ s ≤ 1) (lightness : 0 ≤ l ∧ l ≤ 1) :
    0 ≤ cssChannel h s l n ∧ cssChannel h s l n ≤ 1 := by
  have small : 0 ≤ s * min l (1 - l) ∧ s * min l (1 - l) ≤ min l (1 - l) := by
    have : 0 ≤ min l (1 - l) := le_min lightness.1 (by linarith)
    exact ⟨mul_nonneg saturation.1 this, mul_le_of_le_one_left this saturation.2⟩
  have := min_le_left l (1 - l)
  have := min_le_right l (1 - l)
  unfold cssChannel
  simp only
  generalize isFactor : max (-1 : ℚ) (min _ 1) = factor
  have : -1 ≤ factor ∧ factor ≤ 1 := by
    rw [← isFactor]
    exact ⟨le_max_left _ _, max_le (by norm_num) (min_le_right _ _)⟩
  constructor <;> nlinarith

/-! ### Bytes -/

theorem isPacked {r g b a : ℤ} (red : 0 ≤ r ∧ r ≤ 255) (green : 0 ≤ g ∧ g ≤ 255)
    (blue : 0 ≤ b ∧ b ≤ 255) (alpha : 0 ≤ a ∧ a ≤ 255) :
    IsPacked (int32 r <<< 24 ||| int32 g <<< 16 ||| int32 b <<< 8 ||| int32 a).toNat r g b a := by
  lift r to ℕ using red.1
  lift g to ℕ using green.1
  lift b to ℕ using blue.1
  lift a to ℕ using alpha.1
  have isSum : (int32 r <<< 24 ||| int32 g <<< 16 ||| int32 b <<< 8 ||| int32 a).toNat =
      ((r * 256 + g) * 256 + b) * 256 + a := by
    have channel (n k : ℕ) (small : n < 2 ^ 8) (fits : k ≤ 24) :
        (int32 n <<< k).toNat = n <<< k := by
      have : n * 2 ^ k < 2 ^ 32 := by
        calc n * 2 ^ k < 2 ^ 8 * 2 ^ k := Nat.mul_lt_mul_of_pos_right small (by positivity)
          _ = 2 ^ (8 + k) := (pow_add ..).symm
          _ ≤ 2 ^ 32 := Nat.pow_le_pow_right (by decide) (by omega)
      rw [int32, BitVec.ofInt_natCast, BitVec.toNat_shiftLeft, BitVec.toNat_ofNat,
        Nat.mod_eq_of_lt (show n < 2 ^ 32 by omega), Nat.shiftLeft_eq, Nat.mod_eq_of_lt this]
    have nested : r <<< 24 ||| g <<< 16 ||| b <<< 8 ||| a =
        ((r <<< 8 ||| g) <<< 8 ||| b) <<< 8 ||| a := by
      simp only [Nat.shiftLeft_or_distrib, ← Nat.shiftLeft_add]
    have high := Nat.shiftLeft_add_eq_or_of_lt (show g < 2 ^ 8 by omega) r
    have middle := Nat.shiftLeft_add_eq_or_of_lt (show b < 2 ^ 8 by omega) (r <<< 8 ||| g)
    have low := Nat.shiftLeft_add_eq_or_of_lt (show a < 2 ^ 8 by omega) ((r <<< 8 ||| g) <<< 8 ||| b)
    rw [← BitVec.shiftLeft_zero (int32 a), BitVec.toNat_or, BitVec.toNat_or, BitVec.toNat_or,
      channel r 24 (by omega) (by omega), channel g 16 (by omega) (by omega),
      channel b 8 (by omega) (by omega), channel a 0 (by omega) (by omega), Nat.shiftLeft_zero,
      nested, ← low, ← middle, ← high]
    simp only [Nat.shiftLeft_eq, Nat.reducePow]
  rw [isSum]
  exact ⟨by simp; omega, by push_cast; ring, by
    simp only [Nat.shiftRight_eq_div_pow, show 0xff = 2 ^ 8 - 1 from rfl,
      Nat.and_two_pow_sub_one_eq_mod]; omega⟩

theorem hslToRgb_eq (hue : 0 ≤ h ∧ h < 1) :
    hslToRgb h s l = int32 (round (cssChannel h s l 0 * 255)) <<< 24 |||
      int32 (round (cssChannel h s l 8 * 255)) <<< 16 |||
      int32 (round (cssChannel h s l 4 * 255)) <<< 8 := by
  have isQ : (if l < 0.5 then l * (1 + s) else l + s - l * s) = l + s * min l (1 - l) := by
    split_ifs with dark
    · rw [min_eq_left (by linarith)]
      ring
    · rw [min_eq_right (by linarith)]
      ring
  have isP : 2 * l - (l + s * min l (1 - l)) = l - s * min l (1 - l) := by ring
  unfold hslToRgb
  simp only [isQ, isP]
  rw [hue2rgb_eq (n := 0) (by linarith) (by linarith) (.inl (by ring)),
    hue2rgb_eq (n := 8) (by linarith) (by linarith) (.inr (by ring)),
    hue2rgb_eq (n := 4) (by linarith) (by linarith) (.inr (by ring))]

/-- **The channels of a color are bytes, and those of a hue follow the formula of CSS.** -/
theorem channels_never_bleed (first second third alpha : Text) : let r := (parse255 first).getD 0
    let g := (parse255 second).getD 0
    let b := (parse255 third).getD 0
    let channel n := round
      (cssChannel (parse360 first) (parsePercentage second) (parsePercentage third) n * 255)
    IsPacked (rgbColor first second third 255) r g b 255 ∧
      IsPacked (rgbColor first second third (parse1 alpha)) r g b (parse1 alpha) ∧
      IsPacked (hslColor first second third 255) (channel 0) (channel 8) (channel 4) 255 ∧
      IsPacked (hslColor first second third (parse1 alpha)) (channel 0) (channel 8) (channel 4)
        (parse1 alpha) := by
  intro r g b channel
  have full : (0 : ℤ) ≤ 255 ∧ (255 : ℤ) ≤ 255 := by decide
  have bytes n : 0 ≤ channel n ∧ channel n ≤ 255 := by
    have := @cssChannel_mem (parse360 first) _ _ n (parsePercentage_mem second)
      (parsePercentage_mem third)
    exact round_mem this.1 this.2
  have isColor a : hslColor first second third a = (int32 (channel 0) <<< 24 |||
      int32 (channel 8) <<< 16 ||| int32 (channel 4) <<< 8 ||| int32 a).toNat := by
    rw [hslColor, hslToRgb_eq (parse360_mem first)]
  refine ⟨isPacked (parse255_mem _) (parse255_mem _) (parse255_mem _) full,
    isPacked (parse255_mem _) (parse255_mem _) (parse255_mem _) (parse1_mem _), ?_, ?_⟩
  · rw [isColor]
    exact isPacked (bytes 0) (bytes 8) (bytes 4) full
  · rw [isColor]
    exact isPacked (bytes 0) (bytes 8) (bytes 4) (parse1_mem _)

end ReactNative.NormalizeColor

