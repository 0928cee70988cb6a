import Mathlib.Algebra.Order.Ring.Int
import Mathlib.Algebra.Order.Ring.Rat

/-! The window begins with the visible items and grows towards the overscan range, by one item at
each end at a time. Offsets and lengths are rationals, and the frame of an item is a parameter. -/
namespace ReactNative

open Option

structure FrameMetrics where
  length : ℚ
  offset : ℚ

structure ListScrollMetrics where
  contentLength : ℚ := 0
  offset : ℚ := 0
  velocity : ℚ := 0
  visibleLength : ℚ := 0

inductive FillPreference where
  | after
  | before
  | none
  deriving DecidableEq

/-- The first and the last item. -/
structure RenderLimits where
  first : ℤ
  last : ℤ
  deriving DecidableEq

namespace VirtualizeUtils

/-- The offsets that are reached first by an item have its index. -/
def reachOffsets (ii : ℕ) (trailingOffset : ℚ) (offsets : List ℚ) (out : List (Option ℕ)) :
    List (Option ℕ) :=
  List.zipWith (fun offset index => if index = none ∧ trailingOffset ≥ offset then some ii else index)
    offsets out

/-- The items that are left, of which the first has the index. Throws if the last offset is reached
before another one. -/
def overlapFrom (offsets : List ℚ) (getFrameMetrics : ℤ → FrameMetrics) :
    (left ii : ℕ) → List (Option ℕ) → Option (List (Option ℕ))
  | 0, _, out => some out
  | left + 1, ii, out =>
    let frame := getFrameMetrics ii
    let reached := reachOffsets ii (frame.offset + frame.length) offsets out
    if reached.getLast?.join.isSome then
      if reached.all isSome then some reached else none
    else overlapFrom offsets getFrameMetrics left (ii + 1) reached

def elementsThatOverlapOffsets (offsets : List ℚ) (itemCount : ℕ)
    (getFrameMetrics : ℤ → FrameMetrics) : Option (List (Option ℕ)) :=
  overlapFrom offsets getFrameMetrics itemCount 0 (offsets.map fun _ => none)

def newRangeCount (prev next : RenderLimits) : ℤ :=
  next.last - next.first + 1 - max 0 (1 + min next.last prev.last - max next.first prev.first)

/-- How the window may grow. -/
structure WindowBounds where
  prev : RenderLimits
  overscan : RenderLimits
  maxToRenderPerBatch : ℕ
  fillPreference : FillPreference

variable (bounds : WindowBounds)

/-- Whether the window has come to its end, and else which ends move and how many cells are new. -/
def growOnce (window : RenderLimits) (newCellCount : ℤ) : Option (RenderLimits × ℤ) :=
  let first := window.first
  let last := window.last
  if first ≤ bounds.overscan.first ∧ last ≥ bounds.overscan.last then none
  else
    let maxNewCells : Bool := newCellCount ≥ bounds.maxToRenderPerBatch
    let firstWillAddMore : Bool := first ≤ bounds.prev.first ∨ first > bounds.prev.last
    let firstShouldIncrement : Bool :=
      first > bounds.overscan.first ∧ (!maxNewCells || !firstWillAddMore)
    let lastWillAddMore : Bool := last ≥ bounds.prev.last ∨ last < bounds.prev.first
    let lastShouldIncrement : Bool :=
      last < bounds.overscan.last ∧ (!maxNewCells || !lastWillAddMore)
    if maxNewCells && !firstShouldIncrement && !lastShouldIncrement then none
    else
      let firstMoves := firstShouldIncrement &&
        !(bounds.fillPreference = .after && lastShouldIncrement && lastWillAddMore)
      let lastMoves := lastShouldIncrement &&
        !(bounds.fillPreference = .before && firstShouldIncrement && firstWillAddMore)
      some (⟨if firstMoves then first - 1 else first, if lastMoves then last + 1 else last⟩,
        newCellCount + (if firstMoves && firstWillAddMore then 1 else 0) +
          if lastMoves && lastWillAddMore then 1 else 0)

def growWindow (bounds : WindowBounds) : ℕ → RenderLimits → ℤ → Option RenderLimits
  | 0, _, _ => none
  | fuel + 1, window, newCellCount =>
    match growOnce bounds window newCellCount with
    | none => some window
    | some (grown, count) => growWindow bounds fuel grown count

/-- How far the window is from the overscan range. -/
def distance (overscan window : RenderLimits) : ℕ :=
  (window.first - overscan.first).toNat + (overscan.last - window.last).toNat

def growVisible (itemCount : ℕ) (visible : RenderLimits) : Option RenderLimits :=
  (growWindow bounds (distance bounds.overscan visible + 1) visible
    (newRangeCount bounds.prev visible)).bind fun window =>
      if window.last ≥ window.first ∧ window.first ≥ 0 ∧ window.last < itemCount ∧
          window.first ≥ bounds.overscan.first ∧ window.last ≤ bounds.overscan.last ∧
          window.first ≤ visible.first ∧ window.last ≥ visible.last then
        some window
      else none

def computeWindowedRenderLimits (itemCount maxToRenderPerBatch : ℕ) (windowSize : ℚ)
    (prev : RenderLimits) (getFrameMetricsApprox : ℤ → FrameMetrics)
    (scrollMetrics : ListScrollMetrics) : Option RenderLimits :=
  if itemCount = 0 then some prev
  else
    let lastIndex : ℤ := itemCount - 1
    let visibleBegin := max 0 scrollMetrics.offset
    let visibleEnd := visibleBegin + scrollMetrics.visibleLength
    let overscanLength := (windowSize - 1) * scrollMetrics.visibleLength
    let leadFactor : ℚ := 1 / 2
    let fillPreference : FillPreference :=
      if scrollMetrics.velocity > 1 then .after
      else if scrollMetrics.velocity < -1 then .before else .none
    let overscanBegin := max 0 (visibleBegin - (1 - leadFactor) * overscanLength)
    let overscanEnd := max 0 (visibleEnd + leadFactor * overscanLength)
    if (getFrameMetricsApprox lastIndex).offset < overscanBegin then
      -- the entire list is before the overscan range
      some ⟨max 0 (lastIndex - maxToRenderPerBatch), lastIndex⟩
    else
      (elementsThatOverlapOffsets [overscanBegin, visibleBegin, visibleEnd, overscanEnd]
        itemCount getFrameMetricsApprox).bind fun found =>
          let index (kk : ℕ) : Option ℤ := (found.getD kk none).map Nat.cast
          let overscanFirst := (index 0).getD 0
          let first := (index 1).getD (max 0 overscanFirst)
          let overscanLast := (index 3).getD lastIndex
          let last := (index 2).getD (min overscanLast (first + maxToRenderPerBatch - 1))
          growVisible ⟨prev, ⟨overscanFirst, overscanLast⟩, maxToRenderPerBatch, fillPreference⟩
            itemCount ⟨first, last⟩

variable {window : RenderLimits}

theorem distance_growOnce {bounds : WindowBounds} {grown : RenderLimits} {newCellCount count : ℤ}
    (grows : growOnce bounds window newCellCount = some (grown, count)) :
    distance bounds.overscan grown < distance bounds.overscan window := by
  simp only [growOnce, ite_none_left_eq_some, some.injEq, Prod.mk.injEq] at grows
  obtain ⟨unfilled, goesOn, rfl, -⟩ := grows
  -- the end with room moves, and when both have room not both are held back
  cases bounds.fillPreference <;>
    simp [distance] at goesOn ⊢ <;> split_ifs <;> omega

theorem growWindow_isSome : ∀ (fuel : ℕ) (window : RenderLimits) (newCellCount : ℤ),
      distance bounds.overscan window < fuel →
      (growWindow bounds fuel window newCellCount).isSome := by
  intro fuel
  induction fuel with
  | zero =>
    omega
  | succ fuel ih =>
    intro window newCellCount short
    rw [growWindow]
    split
    next => simp
    next grown count grows =>
      apply ih
      have closer := distance_growOnce grows
      omega

theorem growVisible_inRange {bounds : WindowBounds} {itemCount : ℕ} {visible : RenderLimits}
    (grown : growVisible bounds itemCount visible = some window) :
    0 ≤ window.first ∧ window.first ≤ window.last ∧ window.last < itemCount := by
  simp only [growVisible, bind_eq_some_iff, ite_none_right_eq_some] at grown
  obtain ⟨_, _, range, ⟨⟩⟩ := grown
  exact ⟨range.2.1, range.1, range.2.2.1⟩

theorem computeWindowedRenderLimits_inRange {itemCount maxToRenderPerBatch : ℕ} {windowSize : ℚ}
    {prev : RenderLimits} {getFrameMetricsApprox : ℤ → FrameMetrics}
    {scrollMetrics : ListScrollMetrics} (some_item : itemCount ≠ 0)
    (computed : computeWindowedRenderLimits itemCount maxToRenderPerBatch windowSize prev
      getFrameMetricsApprox scrollMetrics = some window) :
    0 ≤ window.first ∧ window.first ≤ window.last ∧ window.last < itemCount := by
  simp only [computeWindowedRenderLimits, if_neg some_item] at computed
  split at computed
  next =>
    cases computed
    simp only
    omega
  next =>
    obtain ⟨found, _, grown⟩ := bind_eq_some_iff.mp computed
    exact growVisible_inRange grown

end VirtualizeUtils

end ReactNative

