import Mathlib.Order.Monotone.Union
import Mathlib.Data.Rat.Floor
import Mathlib.Data.List.GetD

/-! The map that an interpolation applies to the value of its parent, as JavaScript, Android and iOS
compute it, with rational numbers and finite ranges. -/
namespace ReactNative.Animated

/-! ## Lines -/

theorem monotoneOn_points {α β : Type*} [LinearOrder α] [Preorder β] {f : α → β} {a : ℕ → α} {n : ℕ}
    (mono : ∀ k < n, a k ≤ a (k + 1)) (pieces : ∀ k < n, MonotoneOn f (Set.Icc (a k) (a (k + 1)))) :
    a 0 ≤ a n ∧ MonotoneOn f (Set.Icc (a 0) (a n)) := by
  induction n with
  | zero => simp [Set.Subsingleton.monotoneOn]
  | succ n ih =>
    obtain ⟨le, earlier⟩ := ih (fun k lt => mono k (by omega)) fun k lt => pieces k (by omega)
    have step := mono n n.lt_add_one
    refine ⟨le.trans step, ?_⟩
    rw [← Set.Icc_union_Icc_eq_Icc le step]
    exact earlier.union_right (pieces n n.lt_add_one) (isGreatest_Icc le) (isLeast_Icc step)

def line (x₀ x₁ y₀ y₁ x : ℚ) : ℚ := (x - x₀) / (x₁ - x₀) * (y₁ - y₀) + y₀

section Lines

variable {x₀ x₁ x y₀ y₁ : ℚ}

@[simp]
theorem line_left : line x₀ x₁ y₀ y₁ x₀ = y₀ := by
  simp [line]

theorem line_right (proper : x₀ < x₁) : line x₀ x₁ y₀ y₁ x₁ = y₁ := by
  simp [line, div_self (sub_ne_zero.2 proper.ne')]

theorem line_monotone (proper : x₀ < x₁) (ordered : y₀ ≤ y₁) : Monotone (line x₀ x₁ y₀ y₁) := by
  intro x y le
  unfold line
  gcongr

theorem line_antitone (proper : x₀ < x₁) (ordered : y₁ ≤ y₀) : Antitone (line x₀ x₁ y₀ y₁) := by
  intro x y le
  have := line_monotone proper (neg_le_neg ordered) le
  unfold line at *
  linarith

theorem line_between (proper : x₀ < x₁) (low : x₀ ≤ x) (high : x ≤ x₁) :
    min y₀ y₁ ≤ line x₀ x₁ y₀ y₁ x ∧ line x₀ x₁ y₀ y₁ x ≤ max y₀ y₁ := by
  have right : line x₀ x₁ y₀ y₁ x₁ = y₁ := line_right proper
  rcases le_total y₀ y₁ with up | down
  · have mono := line_monotone proper up
    have := mono low
    have := mono high
    simp_all
  · have anti := line_antitone proper down
    have := anti low
    have := anti high
    simp_all

end Lines

/-! ## The code -/

inductive ExtrapolateType
  | extend
  | identity
  | clamp
  deriving DecidableEq

structure InterpolationConfigType where
  inputRange : List ℚ
  outputRange : List ℚ
  easing : Option (ℚ → ℚ)
  extrapolate : Option ExtrapolateType
  extrapolateLeft : Option ExtrapolateType
  extrapolateRight : Option ExtrapolateType

def linear (t : ℚ) : ℚ := t

/-- `for (i = 1; i < inputRange.length - 1; ++i)`, left at a point that is not below the input. -/
def findRange (input : ℚ) (inputRange : List ℚ) : ℕ :=
  ((List.range' 1 (inputRange.length - 2)).find? fun i => input ≤ inputRange.getD i 0).getD
    (inputRange.length - 1) - 1

def checkValidInputRange (arr : List ℚ) : Prop :=
  2 ≤ arr.length ∧ ∀ i < arr.length - 1, arr.getD i 0 ≤ arr.getD (i + 1) 0

instance (arr : List ℚ) : Decidable (checkValidInputRange arr) :=
  inferInstanceAs (Decidable (_ ∧ _))

/-- The two tests for inputs outside a segment: an error is what is returned at once. -/
def extrapolated (input inputMin inputMax : ℚ)
    (extrapolateLeft extrapolateRight : ExtrapolateType) : Except ℚ ℚ :=
  if input < inputMin ∧ extrapolateLeft = .identity then .error input
  else
    let result := if input < inputMin ∧ extrapolateLeft = .clamp then inputMin else input
    if inputMax < result ∧ extrapolateRight = .identity then .error result
    else .ok (if inputMax < result ∧ extrapolateRight = .clamp then inputMax else result)

def interpolate (input inputMin inputMax outputMin outputMax : ℚ) (easing : ℚ → ℚ)
    (extrapolateLeft extrapolateRight : ExtrapolateType) : ℚ :=
  match extrapolated input inputMin inputMax extrapolateLeft extrapolateRight with
  | .error result => result
  | .ok result =>
    if outputMin = outputMax then outputMin
    else if inputMin = inputMax then
      if input ≤ inputMin then outputMin else outputMax
    else easing ((result - inputMin) / (inputMax - inputMin)) * (outputMax - outputMin) + outputMin

namespace InterpolationConfigType

variable (config : InterpolationConfigType)

def left : ExtrapolateType := (config.extrapolateLeft <|> config.extrapolate).getD .extend

def right : ExtrapolateType := (config.extrapolateRight <|> config.extrapolate).getD .extend

def input (i : ℕ) : ℚ := config.inputRange.getD i 0

def output (i : ℕ) : ℚ := config.outputRange.getD i 0

end InterpolationConfigType

variable (config : InterpolationConfigType)

/-- Nothing where one of the checks of the configuration throws. -/
def createInterpolation : Option (ℚ → ℚ) :=
  if 2 ≤ config.outputRange.length ∧ checkValidInputRange config.inputRange ∧
      config.inputRange.length = config.outputRange.length then
    some fun input =>
      let range := findRange input config.inputRange
      interpolate input (config.input range) (config.input (range + 1)) (config.output range)
        (config.output (range + 1)) (config.easing.getD linear) config.left config.right
  else none

structure NativeInterpolationConfig where
  inputRange : List ℚ
  outputRange : List ℚ
  extrapolateLeft : ExtrapolateType
  extrapolateRight : ExtrapolateType

def InterpolationConfigType.getNativeConfig : NativeInterpolationConfig :=
  ⟨config.inputRange, config.outputRange, config.left, config.right⟩

namespace InterpolationAnimatedNode

def findRangeIndex (value : ℚ) (ranges : List ℚ) : ℕ := findRange value ranges

def interpolateSegment (value inputMin inputMax outputMin outputMax : ℚ)
    (extrapolateLeft extrapolateRight : ExtrapolateType) : ℚ :=
  match extrapolated value inputMin inputMax extrapolateLeft extrapolateRight with
  | .error result => result
  | .ok result =>
    if outputMin = outputMax then outputMin
    else if inputMin = inputMax then
      if value ≤ inputMin then outputMin else outputMax
    else outputMin + (outputMax - outputMin) * (result - inputMin) / (inputMax - inputMin)

def interpolate (value : ℚ) (config : NativeInterpolationConfig) : ℚ :=
  let rangeIndex := findRangeIndex value config.inputRange
  interpolateSegment value (config.inputRange.getD rangeIndex 0)
    (config.inputRange.getD (rangeIndex + 1) 0) (config.outputRange.getD rangeIndex 0)
    (config.outputRange.getD (rangeIndex + 1) 0) config.extrapolateLeft config.extrapolateRight

end InterpolationAnimatedNode

namespace RCTAnimationUtils

def findIndexOfNearestValue (value : ℚ) (range : List ℚ) : ℕ := findRange value range

/-- Nothing where the code divides by zero. -/
def interpolateValue (value inputMin inputMax outputMin outputMax : ℚ)
    (extrapolateLeft extrapolateRight : ExtrapolateType) : Option ℚ :=
  match extrapolated value inputMin inputMax extrapolateLeft extrapolateRight with
  | .error result => some result
  | .ok value =>
    if inputMax - inputMin = 0 then none
    else some (outputMin + (value - inputMin) * (outputMax - outputMin) / (inputMax - inputMin))

def interpolateValueInRange (value : ℚ) (config : NativeInterpolationConfig) : Option ℚ :=
  let rangeIndex := findIndexOfNearestValue value config.inputRange
  interpolateValue value (config.inputRange.getD rangeIndex 0)
    (config.inputRange.getD (rangeIndex + 1) 0) (config.outputRange.getD rangeIndex 0)
    (config.outputRange.getD (rangeIndex + 1) 0) config.extrapolateLeft config.extrapolateRight

end RCTAnimationUtils

namespace InterpolationConfigType

variable (config : InterpolationConfigType)

def last : ℕ := config.inputRange.length - 1

/-- The configurations of the law: points in order, as many values, and no easing of its own. -/
structure Proper : Prop where
  long : 2 ≤ config.inputRange.length
  same : config.inputRange.length = config.outputRange.length
  increasing : config.inputRange.Pairwise (· < ·)
  easing : config.easing.getD linear = linear

/-- Where iOS divides by zero: the segment that is picked has equal inputs, which is the first or
the last, and the input is not one that is returned as it is. -/
def Degenerate (x : ℚ) : Prop :=
  config.input 0 = config.input 1 ∧ x ≤ config.input 0 ∧
      ¬ (x < config.input 0 ∧ config.left = .identity) ∨
    config.input (config.last - 1) = config.input config.last ∧ config.input config.last < x ∧
      config.right ≠ .identity

instance (config : InterpolationConfigType) (x : ℚ) : Decidable (config.Degenerate x) :=
  inferInstanceAs (Decidable (_ ∨ _))

end InterpolationConfigType

open InterpolationConfigType

/-- A map that goes through the points of a configuration and along lines between them. -/
structure PiecewiseLinear (config : InterpolationConfigType) (f : ℚ → ℚ) : Prop where
  points : ∀ i ≤ config.last, f (config.input i) = config.output i
  between : ∀ i < config.last, ∀ x, config.input i ≤ x → x ≤ config.input (i + 1) →
    min (config.output i) (config.output (i + 1)) ≤ f x ∧
      f x ≤ max (config.output i) (config.output (i + 1))
  monotone : config.outputRange.Pairwise (· ≤ ·) →
    MonotoneOn f (Set.Icc (config.input 0) (config.input config.last))
  antitone : config.outputRange.Pairwise (· ≥ ·) →
    AntitoneOn f (Set.Icc (config.input 0) (config.input config.last))
  clampLeft : config.left = .clamp → ∀ x < config.input 0, f x = config.output 0
  clampRight : config.right = .clamp → ∀ x > config.input config.last,
    f x = config.output config.last
  extendLeft : config.left = .extend → ∀ x < config.input 0,
    f x = line (config.input 0) (config.input 1) (config.output 0) (config.output 1) x
  extendRight : config.right = .extend → ∀ x > config.input config.last,
    f x = line (config.input (config.last - 1)) (config.input config.last)
      (config.output (config.last - 1)) (config.output config.last) x
  settings : ∀ both left right g, createInterpolation { config with
      extrapolate := both, extrapolateLeft := left, extrapolateRight := right } = some g →
    ∀ x, config.input 0 ≤ x → x ≤ config.input config.last → g x = f x

/-! ## Which segment is picked -/

variable {config : InterpolationConfigType} {f : ℚ → ℚ} {x : ℚ}

theorem findRange_spec (x : ℚ) (long : 2 ≤ config.inputRange.length) :
    let i := findRange x config.inputRange
    i < config.last ∧ (0 < i → config.input i < x) ∧
      (i + 1 < config.last → x ≤ config.input (i + 1)) := by
  unfold findRange last input
  cases found : (List.range' 1 (config.inputRange.length - 2)).find? fun i =>
      x ≤ config.inputRange.getD i 0 with
  | none =>
    rw [List.find?_range'_eq_none] at found
    refine ⟨by simp; omega, fun positive => ?_, by simp; omega⟩
    simpa using found _ positive (by simp; omega)
  | some i =>
    obtain ⟨reached, bounds, passed⟩ := List.find?_range'_eq_some.1 found
    simp only [List.mem_range'_1] at bounds
    have next : i - 1 + 1 = i := by omega
    refine ⟨by simp; omega, fun positive => ?_, by simpa [next] using fun _ => reached⟩
    simpa using passed (i - 1) positive (by omega)

theorem createInterpolation_eq_some (created : createInterpolation config = some f) :
    2 ≤ config.inputRange.length ∧
      (∀ i j, i ≤ j → j ≤ config.last → config.input i ≤ config.input j) ∧
      ∀ input, f input = let range := findRange input config.inputRange
        interpolate input (config.input range) (config.input (range + 1)) (config.output range)
          (config.output (range + 1)) (config.easing.getD linear) config.left config.right := by
  simp only [createInterpolation, Option.ite_none_right_eq_some, Option.some.injEq] at created
  obtain ⟨⟨-, ⟨long, ordered⟩, -⟩, rfl⟩ := created
  refine ⟨long, fun i j le inside => ?_, fun _ => rfl⟩
  induction j, le using Nat.le_induction with
  | base => exact le_rfl
  | succ j _ ih => exact (ih (by omega)).trans (ordered j inside)

/-! ## The map of JavaScript -/

variable {input inputMin inputMax outputMin outputMax : ℚ} {left right : ExtrapolateType}

theorem interpolate_line {result : ℚ} (proper : inputMin < inputMax)
    (passed : extrapolated input inputMin inputMax left right = .ok result) :
    interpolate input inputMin inputMax outputMin outputMax linear left right =
      line inputMin inputMax outputMin outputMax result := by
  by_cases flat : outputMin = outputMax <;> simp [interpolate, passed, flat, proper.ne, linear, line]

theorem extrapolated_inside (above : inputMin ≤ input) (below : input ≤ inputMax) :
    extrapolated input inputMin inputMax left right = .ok input := by
  simp [extrapolated, above.not_gt, below.not_gt]

namespace InterpolationConfigType.Proper

variable (proper : config.Proper)
include proper

theorem input_lt {i j : ℕ} (lt : i < j) (inside : j ≤ config.last) :
    config.input i < config.input j := by
  have inside' : j < config.inputRange.length := by rw [last] at inside; omega
  have := List.pairwise_iff_getElem.1 proper.increasing i j (by omega) inside' lt
  simpa [input, List.getD_eq_getElem, inside', lt.trans inside'] using this

theorem input_mono {i j : ℕ} (le : i ≤ j) (inside : j ≤ config.last) :
    config.input i ≤ config.input j := by
  rcases le.lt_or_eq with lt | rfl
  exacts [(proper.input_lt lt inside).le, le_rfl]

theorem output_ordered {R : ℚ → ℚ → Prop} (ordered : config.outputRange.Pairwise R) {k : ℕ}
    (segment : k < config.last) : R (config.output k) (config.output (k + 1)) := by
  have inside : k + 1 < config.outputRange.length := by
    rw [← proper.same]
    rw [last] at segment
    omega
  have := List.pairwise_iff_getElem.1 ordered k (k + 1) (by omega) inside k.lt_add_one
  simpa [output, List.getD_eq_getElem, inside, k.lt_add_one.trans inside] using this

theorem exists_created : ∃ f, createInterpolation config = some f := by
  have long := proper.long
  refine ⟨_, if_pos ⟨proper.same ▸ long, ⟨long, fun i inside => ?_⟩, proper.same⟩⟩
  exact (proper.input_lt (Nat.lt_add_one i) (by rw [last]; omega)).le

theorem exists_segment (low : config.input 0 ≤ x) (high : x ≤ config.input config.last) :
    ∃ k < config.last, config.input k ≤ x ∧ x ≤ config.input (k + 1) := by
  obtain ⟨picked, above, below⟩ := findRange_spec x proper.long
  refine ⟨_, picked, ?_, ?_⟩
  · rcases Nat.eq_zero_or_pos (findRange x config.inputRange) with first | positive
    exacts [first ▸ low, (above positive).le]
  · rcases Nat.lt_or_eq_of_le picked with more | least
    exacts [below more, high.trans_eq (congrArg config.input least.symm)]

variable (created : createInterpolation config = some f)
include created

theorem follows {k : ℕ} (segment : k < config.last) (low : config.input k ≤ x)
    (high : x ≤ config.input (k + 1)) :
    f x = line (config.input k) (config.input (k + 1)) (config.output k)
      (config.output (k + 1)) x := by
  obtain ⟨picked, above, below⟩ := findRange_spec x proper.long
  rw [(createInterpolation_eq_some created).2.2 x]
  generalize findRange x config.inputRange = i at *
  have width := proper.input_lt i.lt_add_one picked
  rcases lt_trichotomy i k with lt | rfl | gt
  -- The input is the point where the segment begins, and the one before it was picked.
  · have reached := below (by omega)
    obtain rfl : k = i + 1 := by
      by_contra apart
      linarith [proper.input_lt (i := i + 1) (j := k) (by omega) segment.le]
    obtain rfl : x = config.input (i + 1) := le_antisymm reached low
    rw [proper.easing, interpolate_line width (extrapolated_inside width.le le_rfl),
      line_right width, line_left]
  · rw [proper.easing, interpolate_line width (extrapolated_inside low high)]
  · linarith [above (by omega), proper.input_mono (i := k + 1) gt picked.le]

theorem left_of_range (below : x < config.input 0) :
    f x = interpolate x (config.input 0) (config.input 1) (config.output 0) (config.output 1)
      linear config.left config.right := by
  obtain ⟨picked, above, -⟩ := findRange_spec x proper.long
  rw [(createInterpolation_eq_some created).2.2 x, proper.easing]
  rcases Nat.eq_zero_or_pos (findRange x config.inputRange) with first | positive
  · rw [first]
  · linarith [above positive, proper.input_mono (Nat.zero_le _) picked.le]

theorem right_of_range (above : config.input config.last < x) :
    f x = interpolate x (config.input (config.last - 1)) (config.input config.last)
      (config.output (config.last - 1)) (config.output config.last) linear config.left
      config.right := by
  obtain ⟨picked, -, below⟩ := findRange_spec x proper.long
  rw [(createInterpolation_eq_some created).2.2 x, proper.easing]
  rcases Nat.lt_or_eq_of_le picked with more | least
  · linarith [below more, proper.input_mono picked le_rfl]
  · rw [← least]
    rfl

end InterpolationConfigType.Proper

/-- **A piecewise linear map**: with increasing inputs and linear easing the map that is created
goes through the points, stays between and follows the order of neighbouring outputs, and differs
from setting to setting only outside the range. -/
theorem createInterpolation_piecewiseLinear (config : InterpolationConfigType)
    (proper : config.Proper) :
    ∃ f, createInterpolation config = some f ∧ PiecewiseLinear config f := by
  obtain ⟨f, created⟩ := proper.exists_created
  have long := proper.long
  obtain ⟨n, least⟩ : ∃ n, config.last = n + 1 := ⟨config.last - 1, by rw [last]; omega⟩
  have width {k} (segment : k < config.last) := proper.input_lt k.lt_add_one segment
  have first : config.input 0 < config.input 1 := width (by omega)
  have final : config.input n < config.input (n + 1) := width (by omega)
  have line_on {k} (segment : k < config.last) :
      Set.EqOn f _ (Set.Icc (config.input k) (config.input (k + 1))) := fun x inside =>
    proper.follows created segment inside.1 inside.2
  refine ⟨f, created, fun i inside => ?_, fun k segment x low high => ?_, fun ordered => ?_,
    fun ordered => ?_, fun clamp x below => ?_, fun clamp x above => ?_, fun extend x below => ?_,
    fun extend x above => ?_, fun both left right g created' x low high => ?_⟩
  · rcases inside.lt_or_eq with lt | rfl
    · rw [proper.follows created lt le_rfl (width lt).le, line_left]
    · rw [least, proper.follows created (by omega) final.le le_rfl, line_right final]
  · rw [proper.follows created segment low high]
    exact line_between (width segment) low high
  · refine (monotoneOn_points (fun k segment => (width segment).le) fun k segment => ?_).2
    refine MonotoneOn.congr (Monotone.monotoneOn ?_ _) (line_on segment).symm
    exact line_monotone (width segment) (proper.output_ordered ordered segment)
  · refine (monotoneOn_points (β := ℚᵒᵈ) (fun k segment => (width segment).le)
      fun k segment => ?_).2
    refine AntitoneOn.congr (Antitone.antitoneOn ?_ _) (line_on segment).symm
    exact line_antitone (width segment) (proper.output_ordered ordered segment)
  · rw [proper.left_of_range created below, clamp,
      interpolate_line first (by simp [extrapolated, below, first.not_gt]; rfl), line_left]
  · rw [proper.right_of_range created above, clamp]
    simp only [least, Nat.add_sub_cancel] at above ⊢
    rw [interpolate_line final (by simp [extrapolated, above, (final.trans above).not_gt]; rfl),
      line_right final]
  · rw [proper.left_of_range created below, extend,
      interpolate_line first (by simp [extrapolated, below, (below.trans first).not_gt]; rfl)]
  · rw [proper.right_of_range created above, extend]
    simp only [least, Nat.add_sub_cancel] at above ⊢
    rw [interpolate_line final (by simp [extrapolated, above, (final.trans above).not_gt]; rfl)]
  · obtain ⟨k, segment, above, below⟩ := proper.exists_segment low high
    have same : InterpolationConfigType.Proper { config with
        extrapolate := both, extrapolateLeft := left, extrapolateRight := right } :=
      ⟨proper.long, proper.same, proper.increasing, proper.easing⟩
    exact (same.follows created' segment above below).trans (line_on segment ⟨above, below⟩).symm

/-! ## Android and iOS -/

/-- **Android interpolates as JavaScript does.** -/
theorem InterpolationAnimatedNode.interpolate_eq (config : InterpolationConfigType) (f : ℚ → ℚ)
    (created : createInterpolation config = some f) (easing : config.easing.getD linear = linear)
    (x : ℚ) : interpolate x config.getNativeConfig = f x := by
  rw [(createInterpolation_eq_some created).2.2 x, easing]
  simp only [interpolate, interpolateSegment, Animated.interpolate, linear, findRangeIndex,
    getNativeConfig, input, output]
  split
  · rfl
  · split_ifs <;> first | rfl | ring_nf

theorem RCTAnimationUtils.interpolateValue_eq_iff (ordered : inputMin ≤ inputMax) :
    interpolateValue input inputMin inputMax outputMin outputMax left right =
        some (interpolate input inputMin inputMax outputMin outputMax linear left right) ↔
      ¬ (inputMin = inputMax ∧ ¬ (input < inputMin ∧ left = .identity) ∧
        ¬ (inputMax < input ∧ right = .identity)) := by
  have error : (∃ result, extrapolated input inputMin inputMax left right = .error result) ↔
      input < inputMin ∧ left = .identity ∨ inputMax < input ∧ right = .identity := by
    unfold extrapolated
    constructor <;> (dsimp only; split_ifs <;> grind)
  rw [interpolateValue, interpolate]
  cases passed : extrapolated input inputMin inputMax left right with
  | error result =>
    grind
  | ok result =>
    by_cases same : inputMin = inputMax
    · simp_all
    · have := sub_ne_zero.2 (Ne.symm same)
      by_cases flat : outputMin = outputMax <;> simp [same, this, flat, linear]
      ring_nf

theorem degenerate_iff (created : createInterpolation config = some f) {i : ℕ}
    (found : findRange x config.inputRange = i) : config.Degenerate x ↔ config.input i = config.input (i + 1) ∧
      ¬ (x < config.input i ∧ config.left = .identity) ∧
      ¬ (config.input (i + 1) < x ∧ config.right = .identity) := by
  obtain ⟨long, mono, -⟩ := createInterpolation_eq_some created
  obtain ⟨picked, above, below⟩ := findRange_spec x long
  unfold Degenerate
  grind

/-- **iOS interpolates as JavaScript does** exactly where it does not divide by zero. -/
theorem RCTAnimationUtils.interpolateValueInRange_eq_iff (config : InterpolationConfigType)
    (f : ℚ → ℚ) (created : createInterpolation config = some f)
    (easing : config.easing.getD linear = linear) (x : ℚ) :
    interpolateValueInRange x config.getNativeConfig = some (f x) ↔ ¬ config.Degenerate x := by
  obtain ⟨long, mono, value⟩ := createInterpolation_eq_some created
  rw [degenerate_iff created rfl, value, easing]
  exact interpolateValue_eq_iff (mono _ _ (Nat.le_succ _) (findRange_spec x long).1)

/-! ## Two ranges -/

def ramp : InterpolationConfigType := ⟨[0, 1, 2], [0, 10, 10], none, some .clamp, none, none⟩

theorem ramp_piecewiseLinear : ∃ f, createInterpolation ramp = some f ∧ PiecewiseLinear ramp f :=
  createInterpolation_piecewiseLinear ramp ⟨by decide, rfl, by decide, rfl⟩

theorem ramp_android : ∃ f, createInterpolation ramp = some f ∧
    ∀ x, InterpolationAnimatedNode.interpolate x ramp.getNativeConfig = f x :=
  ⟨_, if_pos (by decide), InterpolationAnimatedNode.interpolate_eq ramp _ (if_pos (by decide)) rfl⟩

theorem ramp_iOS : ∃ f, createInterpolation ramp = some f ∧
    RCTAnimationUtils.interpolateValueInRange 1 ramp.getNativeConfig = some (f 1) :=
  ⟨_, if_pos (by decide), (RCTAnimationUtils.interpolateValueInRange_eq_iff ramp _
    (if_pos (by decide)) rfl 1).2 (by decide +kernel)⟩

def jump : InterpolationConfigType := ⟨[0, 0, 1], [0, 5, 6], none, none, none, none⟩

theorem jump_divides : (createInterpolation jump).map (· 0) = some 0 ∧
    RCTAnimationUtils.interpolateValueInRange 0 jump.getNativeConfig = none := by
  decide +kernel

end ReactNative.Animated

