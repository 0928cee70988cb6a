import Mathlib.Data.Int.Log
import ReactNative.Animated.Interpolation
import ReactNative.Foundation.Runs

/-! A timing animation that runs natively is a list of frames, of which the last is the easing at 1.
On iOS the animation ends at the last frame, and the value to go to is a `float`. On Android it ends
at the value to go to, which is the same if the easing ends at 1. -/
namespace ReactNative.Animated

structure FramesConfig where
  frames : List ℚ
  toValue : ℚ
  iterations : ℤ

namespace TimingAnimation

def frameDuration : ℚ := 1000 / 60

/-- `Math.round`, for JavaScript and Java. -/
def round (x : ℚ) : ℤ := ⌊x + 1 / 2⌋

def getNativeAnimationConfig (easing : ℚ → ℚ) (duration toValue : ℚ) (iterations : ℤ) :
    FramesConfig where
  frames :=
    let numFrames := (round (duration / frameDuration)).toNat
    (List.range numFrames).map (fun frame => easing (frame / numFrames)) ++ [easing 1]
  toValue := toValue
  iterations := iterations

/-- What `onUpdate` sets on completion, with a duration. -/
def finalValue (easing : ℚ → ℚ) (fromValue toValue : ℚ) : ℚ :=
  fromValue + easing 1 * (toValue - fromValue)

end TimingAnimation

/-! ## Android -/

structure FrameBasedAnimationDriver where
  startFrameTimeNanos : ℤ := -1
  frames : List ℚ
  toValue : ℚ
  fromValue : ℚ := 0
  iterations : ℤ
  currentLoop : ℤ := 1
  hasFinished : Bool
  value : ℚ
  passes : ℕ := 0
  outOfBounds : Bool := false

namespace FrameBasedAnimationDriver

def resetConfig (config : FramesConfig) (value : ℚ) : FrameBasedAnimationDriver where
  frames := config.frames
  toValue := config.toValue
  iterations := config.iterations
  hasFinished := config.iterations = 0
  value := value

variable (driver : FrameBasedAnimationDriver) (frameTimeNanos : ℕ)

/-- The time of the first frame of a loop is taken, and the value at the very first. -/
def begin : FrameBasedAnimationDriver :=
  if driver.startFrameTimeNanos < 0 then
    { driver with
      startFrameTimeNanos := frameTimeNanos
      fromValue := if driver.currentLoop = 1 then driver.value else driver.fromValue }
  else driver

/-- The cast of the rounded quotient to an `int` may overflow. -/
def frameIndex : ℤ :=
  let timeFromStartMillis := (frameTimeNanos - driver.startFrameTimeNanos).tdiv 1000000
  (TimingAnimation.round (timeFromStartMillis / TimingAnimation.frameDuration)).bmod (2 ^ 32)

/-- Nothing where the step throws an `IllegalStateException`. -/
def runAnimationStep : Option FrameBasedAnimationDriver :=
  let driver := driver.begin frameTimeNanos
  let frameIndex := driver.frameIndex frameTimeNanos
  if frameIndex < 0 then none
  else if driver.hasFinished then some driver
  else if (driver.frames.length : ℤ) - 1 ≤ frameIndex then
    let done := { driver with value := driver.toValue, passes := driver.passes + 1 }
    some <|
      if driver.iterations = -1 ∨ driver.currentLoop < driver.iterations then
        { done with startFrameTimeNanos := -1, currentLoop := driver.currentLoop + 1 }
      else { done with hasFinished := true }
  else
    match driver.frames[frameIndex.toNat]? with
    | some frame =>
      some { driver with
        value := driver.fromValue + frame * (driver.toValue - driver.fromValue) }
    | none => some { driver with outOfBounds := true }

structure Plays (config : FramesConfig) (driver : FrameBasedAnimationDriver) : Prop where
  toValue : driver.toValue = config.toValue
  iterations : driver.iterations = config.iterations
  inBounds : driver.outOfBounds = false
  going : driver.hasFinished = false →
    driver.passes + 1 = driver.currentLoop ∧ driver.currentLoop ≤ config.iterations
  finished : driver.hasFinished = true →
    driver.passes = config.iterations ∧ driver.value = config.toValue

theorem Plays.step {config : FramesConfig} {driver next : FrameBasedAnimationDriver} {time : ℕ}
    (positive : 1 ≤ config.iterations) (plays : driver.Plays config)
    (stepped : driver.runAnimationStep time = some next) : next.Plays config := by
  have begun : (driver.begin time).Plays config := by
    unfold begin
    split
    · exact ⟨plays.toValue, plays.iterations, plays.inBounds, plays.going, plays.finished⟩
    · exact plays
  unfold runAnimationStep at stepped
  obtain ⟨toValue, iterations, inBounds, going, finished⟩ := begun
  constructor <;> grind

end FrameBasedAnimationDriver

/-! ## iOS -/

/-- The nearest integer, and of two the even one. -/
def roundToEven (x : ℚ) : ℤ :=
  if x - ⌊x⌋ < 1 / 2 ∨ (x - ⌊x⌋ = 1 / 2 ∧ ⌊x⌋ % 2 = 0) then ⌊x⌋ else ⌊x⌋ + 1

/-- A number as a `float`, with 24 binary digits and none below 2 ^ -149. Numbers beyond the largest
`float` are left out. -/
def floatValue (x : ℚ) : ℚ :=
  let unit : ℚ := 2 ^ max (Int.log 2 |x| - 23) (-149)
  roundToEven (x / unit) * unit

structure RCTFrameAnimation where
  frames : List ℚ
  toValue : ℚ
  fromValue : ℚ
  lastPosition : ℚ
  animationStartTime : ℚ := -1
  animationCurrentTime : ℚ := -1
  iterations : ℤ
  currentLoop : ℤ := 1
  hasBegun : Bool := true
  hasFinished : Bool
  value : ℚ
  passes : ℕ := 0
  outOfBounds : Bool := false

namespace RCTFrameAnimation

/-- The animation of a node, when it has been started. -/
def initWithConfig (config : FramesConfig) (value : ℚ) : RCTFrameAnimation where
  frames := config.frames
  toValue := floatValue config.toValue
  fromValue := value
  lastPosition := value
  iterations := config.iterations
  hasFinished := config.iterations = 0
  value := value

def singleFrameInterval : ℚ := 1 / 60

variable (animation : RCTFrameAnimation)

def updateOutputWithFrameOutput (frameOutput : ℚ) : Option RCTFrameAnimation :=
  (RCTAnimationUtils.interpolateValue frameOutput 0 1 animation.fromValue animation.toValue .extend
    .extend).map fun outputValue =>
      { animation with lastPosition := outputValue, value := outputValue }

def begin (currentTime : ℚ≥0) : RCTFrameAnimation :=
  { animation with
    animationStartTime :=
      if animation.animationStartTime = -1 then currentTime else animation.animationStartTime
    animationCurrentTime := currentTime }

/-- Times do not decrease. The drag coefficient is not 1 in some simulators only. -/
def stepAnimationWithTime (dragCoefficient : ℚ) (animation : RCTFrameAnimation)
    (currentTime : ℚ≥0) : Option RCTFrameAnimation :=
  if !animation.hasBegun || animation.hasFinished || animation.frames = [] then some animation
  else if currentTime < animation.animationCurrentTime then none
  else
    let animation := animation.begin currentTime
    let currentDuration :=
      (animation.animationCurrentTime - animation.animationStartTime) / dragCoefficient
    let startIndex := ⌊currentDuration / singleFrameInterval⌋.toNat
    if animation.frames.length ≤ startIndex + 1 then
      let ended := { animation with passes := animation.passes + 1 }
      if animation.iterations = -1 ∨ animation.currentLoop < animation.iterations then
        { ended with
          animationStartTime := currentTime
          currentLoop := animation.currentLoop + 1
          }.updateOutputWithFrameOutput (animation.frames.headD 0)
      else
        { ended with hasFinished := true }.updateOutputWithFrameOutput
          (animation.frames.getLastD 0)
    else
      match animation.frames[startIndex]?, animation.frames[startIndex + 1]? with
      | some fromFrame, some toFrame =>
        (RCTAnimationUtils.interpolateValue currentDuration (startIndex * singleFrameInterval)
          ((startIndex + 1) * singleFrameInterval) fromFrame toFrame .extend .extend).bind
            animation.updateOutputWithFrameOutput
      | _, _ => some { animation with outOfBounds := true }

/-- Each loop that is over has been played, and the last ends at the last frame. -/
structure Plays (config : FramesConfig) (fromValue : ℚ) (animation : RCTFrameAnimation) : Prop where
  frames : animation.frames = config.frames
  start : animation.fromValue = fromValue
  toValue : animation.toValue = floatValue config.toValue
  iterations : animation.iterations = config.iterations
  /-- No duration is negative. -/
  ordered : animation.animationStartTime = -1 ∨
    animation.animationStartTime ≤ animation.animationCurrentTime
  inBounds : animation.outOfBounds = false
  going : animation.hasFinished = false →
    animation.passes + 1 = animation.currentLoop ∧ animation.currentLoop ≤ config.iterations
  finished : animation.hasFinished = true → animation.passes = config.iterations ∧
    animation.value = fromValue + config.frames.getLastD 0 * (floatValue config.toValue - fromValue)

theorem updateOutput_eq (frameOutput : ℚ) : animation.updateOutputWithFrameOutput frameOutput =
      let value := animation.fromValue + frameOutput * (animation.toValue - animation.fromValue)
      some { animation with lastPosition := value, value := value } := by
  simp [updateOutputWithFrameOutput, RCTAnimationUtils.interpolateValue, extrapolated]

theorem Plays.step {config : FramesConfig} {fromValue dragCoefficient : ℚ}
    {animation next : RCTFrameAnimation} {time : ℚ≥0} (positive : 1 ≤ config.iterations)
    (plays : animation.Plays config fromValue)
    (stepped : animation.stepAnimationWithTime dragCoefficient time = some next) :
    next.Plays config fromValue := by
  unfold stepAnimationWithTime at stepped
  simp only [updateOutput_eq] at stepped
  split at stepped
  · cases stepped
    exact plays
  split at stepped
  · cases stepped
  next running late =>
    have begun : (animation.begin time).Plays config fromValue := by
      obtain ⟨frames, start, toValue, iterations, ordered, inBounds, going, finished⟩ := plays
      constructor <;> grind [begin]
    have now : (animation.begin time).animationCurrentTime = time := rfl
    have notFinished : (animation.begin time).hasFinished = false := by simp_all [begin]
    obtain ⟨frames, start, toValue, iterations, ordered, inBounds, going, finished⟩ := begun
    split at stepped
    · constructor <;> grind
    · split at stepped
      · obtain ⟨frameOutput, -, shown⟩ := Option.bind_eq_some_iff.1 stepped
        constructor <;> grind
      next missing =>
        exact (missing _ _ (List.getElem?_eq_getElem (by omega))
          (List.getElem?_eq_getElem (by omega))).elim

end RCTFrameAnimation

/-! ## Both -/

def halfway (t : ℚ) : ℚ := t / 2

def halfwayConfig : FramesConfig := TimingAnimation.getNativeAnimationConfig halfway (50 / 3) 10 1

def halfwayAndroid : Option FrameBasedAnimationDriver :=
  Runs.run FrameBasedAnimationDriver.runAnimationStep (.resetConfig halfwayConfig 0) [0, 20000000]

def halfwayIOS : Option RCTFrameAnimation :=
  Runs.run (RCTFrameAnimation.stepAnimationWithTime 1) (.initWithConfig halfwayConfig 0) [0, 1]

end ReactNative.Animated

