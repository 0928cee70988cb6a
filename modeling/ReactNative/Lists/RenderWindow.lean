import Mathlib.Data.List.Pairwise
import Mathlib.Tactic.Linarith
import ReactNative.Lists.VirtualizeUtils

/-! The items at the four boundaries are the first ones that end there or later, so the visible
range lies in the overscan range, and the window grows from the one towards the other. -/
namespace ReactNative

open List

namespace RenderLimits

def Contains (window range : RenderLimits) : Prop :=
  window.first ≤ range.first ∧ range.last ≤ window.last

def moved (window : RenderLimits) (firstMoves lastMoves : Bool) : RenderLimits :=
  ⟨if firstMoves then window.first - 1 else window.first,
    if lastMoves then window.last + 1 else window.last⟩

end RenderLimits

namespace VirtualizeUtils

section Boundaries

variable (itemCount : ℕ) (windowSize : ℚ) (getFrameMetrics : ℤ → FrameMetrics)
  (scrollMetrics : ListScrollMetrics)

/-- The first item that ends at the offset or after it. -/
def firstReaching (offset : ℚ) : Option ℕ :=
  (List.range itemCount).find? fun ii =>
    offset ≤ (getFrameMetrics ii).offset + (getFrameMetrics ii).length

def visibleBegin : ℚ := max 0 scrollMetrics.offset

def visibleEnd : ℚ := visibleBegin scrollMetrics + scrollMetrics.visibleLength

/-- What is rendered beyond one end of the viewport. -/
def overscanMargin : ℚ := 1 / 2 * ((windowSize - 1) * scrollMetrics.visibleLength)

def overscanBegin : ℚ := max 0 (visibleBegin scrollMetrics - overscanMargin windowSize scrollMetrics)

def overscanEnd : ℚ := max 0 (visibleEnd scrollMetrics + overscanMargin windowSize scrollMetrics)

/-- The entire list is before the overscan range. -/
def BeforeOverscan : Prop :=
  (getFrameMetrics (itemCount - 1)).offset < overscanBegin windowSize scrollMetrics

def overscanRange : RenderLimits where
  first := ((firstReaching itemCount getFrameMetrics
    (overscanBegin windowSize scrollMetrics)).map Nat.cast).getD 0
  last := ((firstReaching itemCount getFrameMetrics
    (overscanEnd windowSize scrollMetrics)).map Nat.cast).getD (itemCount - 1)

/-- The visible items. If the list ends in the viewport, then no more of them than fit in a batch. -/
def visibleRange (maxToRenderPerBatch : ℕ) : RenderLimits :=
  let overscan := overscanRange itemCount windowSize getFrameMetrics scrollMetrics
  let first := ((firstReaching itemCount getFrameMetrics
    (visibleBegin scrollMetrics)).map Nat.cast).getD overscan.first
  let last := ((firstReaching itemCount getFrameMetrics
    (visibleEnd scrollMetrics)).map Nat.cast).getD (min overscan.last (first + maxToRenderPerBatch - 1))
  ⟨first, last⟩

def fillPreference : FillPreference :=
  if scrollMetrics.velocity > 1 then .after
  else if scrollMetrics.velocity < -1 then .before else .none

end Boundaries

section Reaching

variable {itemCount : ℕ} {getFrameMetrics : ℤ → FrameMetrics} {offset later : ℚ} {ii : ℕ}

theorem firstReaching_lt (found : firstReaching itemCount getFrameMetrics offset = some ii) :
    ii < itemCount :=
  mem_range.mp (mem_of_find?_eq_some found)

theorem firstReaching_succ : firstReaching (itemCount + 1) getFrameMetrics offset =
    (firstReaching itemCount getFrameMetrics offset).or
      (if offset ≤ (getFrameMetrics itemCount).offset + (getFrameMetrics itemCount).length then
        some itemCount else none) := by
  rw [firstReaching, range_succ, find?_append, ← firstReaching]
  by_cases reaches : offset ≤ (getFrameMetrics itemCount).offset + (getFrameMetrics itemCount).length
  · rw [if_pos reaches, find?_cons_of_pos (by simpa using reaches)]
  · rw [if_neg reaches, find?_cons_of_neg (by simpa using reaches), find?_nil]

theorem firstReaching_add (left : ℕ)
    (found : firstReaching itemCount getFrameMetrics offset = some ii) :
    firstReaching (itemCount + left) getFrameMetrics offset = some ii := by
  induction left with
  | zero => exact found
  | succ left ih => rw [← Nat.add_assoc, firstReaching_succ, ih, Option.some_or]

theorem firstReaching_mono (ordered : offset ≤ later)
    (found : firstReaching itemCount getFrameMetrics later = some ii) :
    ∃ jj, firstReaching itemCount getFrameMetrics offset = some jj ∧ jj ≤ ii := by
  obtain ⟨reaches, -, -⟩ := find?_range_eq_some.mp found
  rw [decide_eq_true_eq] at reaches
  cases sooner : firstReaching itemCount getFrameMetrics offset with
  | none =>
    have unreached := find?_eq_none.mp sooner ii (mem_range.mpr (firstReaching_lt found))
    simp only [decide_eq_true_eq] at unreached
    linarith
  | some jj =>
    refine ⟨jj, rfl, Nat.le_of_not_lt fun beyond => ?_⟩
    obtain ⟨-, -, unreached⟩ := find?_range_eq_some.mp sooner
    have passed := unreached ii beyond
    simp only [Bool.not_eq_true', decide_eq_false_iff_not] at passed
    linarith

theorem firstReaching_isSome (reached : ii < itemCount)
    (reaches : offset ≤ (getFrameMetrics ii).offset + (getFrameMetrics ii).length) :
    ∃ jj, firstReaching itemCount getFrameMetrics offset = some jj := by
  rw [← Option.isSome_iff_exists, firstReaching, find?_isSome]
  exact ⟨ii, mem_range.mpr reached, by simpa using reaches⟩

end Reaching

section Overlap

variable {offsets : List ℚ} {getFrameMetrics : ℤ → FrameMetrics}

theorem reachOffsets_eq (offsets : List ℚ) (ii : ℕ) :
    reachOffsets ii ((getFrameMetrics ii).offset + (getFrameMetrics ii).length) offsets
        (offsets.map (firstReaching ii getFrameMetrics)) =
      offsets.map (firstReaching (ii + 1) getFrameMetrics) := by
  rw [reachOffsets, zipWith_map_right, zipWith_self]
  apply map_congr_left
  intro offset _
  rw [firstReaching_succ]
  cases firstReaching ii getFrameMetrics offset <;> simp

variable (getFrameMetrics) in
/-- The loop of the items, from any of them on. The offsets before the last one are reached with it,
so the invariant holds. -/
theorem overlapFrom_eq (increasing : offsets.Pairwise (· ≤ ·)) (left ii : ℕ) :
    overlapFrom offsets getFrameMetrics left ii (offsets.map (firstReaching ii getFrameMetrics)) =
      some (offsets.map (firstReaching (ii + left) getFrameMetrics)) := by
  induction left generalizing ii with
  | zero => rfl
  | succ left ih =>
    rw [overlapFrom, reachOffsets_eq]
    split
    next lastReached =>
      obtain ⟨index, isIndex⟩ := Option.isSome_iff_exists.mp lastReached
      rw [getLast?_map] at isIndex
      obtain ⟨last, isLast, found⟩ := Option.map_eq_some_iff.mp (Option.join_eq_some_iff.mp isIndex)
      -- each offset is at most the last one
      have reached : ∀ offset ∈ offsets,
          ∃ jj, firstReaching (ii + 1) getFrameMetrics offset = some jj := by
        intro offset member
        have ordered : offset ≤ last := by
          obtain ⟨before, rfl⟩ := getLast?_eq_some_iff.mp isLast
          rcases mem_append.mp member with inFront | isEnd
          · exact (pairwise_append.mp increasing).2.2 offset inFront last (by simp)
          · exact (mem_singleton.mp isEnd).le
        obtain ⟨jj, sooner, -⟩ := firstReaching_mono ordered found
        exact ⟨jj, sooner⟩
      have allReached : (offsets.map (firstReaching (ii + 1) getFrameMetrics)).all Option.isSome := by
        simp only [all_map, all_eq_true, Function.comp_apply]
        intro offset member
        obtain ⟨jj, isFound⟩ := reached offset member
        rw [isFound, Option.isSome_some]
      rw [if_pos allReached, Option.some_inj]
      apply map_congr_left
      intro offset member
      obtain ⟨jj, isFound⟩ := reached offset member
      rw [isFound, Nat.add_comm left, ← Nat.add_assoc, firstReaching_add left isFound]
    next => rw [ih, Nat.add_right_comm, Nat.add_assoc]

variable (getFrameMetrics) in
theorem elementsThatOverlapOffsets_eq (increasing : offsets.Pairwise (· ≤ ·)) (itemCount : ℕ) :
    elementsThatOverlapOffsets offsets itemCount getFrameMetrics =
      some (offsets.map (firstReaching itemCount getFrameMetrics)) := by
  have looped := overlapFrom_eq getFrameMetrics increasing itemCount 0
  rw [Nat.zero_add] at looped
  rw [elementsThatOverlapOffsets, ← looped]
  rfl

end Overlap

/-! ### Growing -/

def FirstWillAddMore (prev window : RenderLimits) : Prop :=
  window.first ≤ prev.first ∨ window.first > prev.last

def LastWillAddMore (prev window : RenderLimits) : Prop :=
  window.last ≥ prev.last ∨ window.last < prev.first

instance (prev window : RenderLimits) : Decidable (FirstWillAddMore prev window) :=
  inferInstanceAs (Decidable (_ ∨ _))

instance (prev window : RenderLimits) : Decidable (LastWillAddMore prev window) :=
  inferInstanceAs (Decidable (_ ∨ _))

structure Growth (bounds : WindowBounds) (window : RenderLimits) (newCellCount : ℤ)
    (firstMoves lastMoves : Bool) : Prop where
  first : firstMoves → bounds.overscan.first < window.first ∧
    (newCellCount < bounds.maxToRenderPerBatch ∨ ¬FirstWillAddMore bounds.prev window)
  last : lastMoves → window.last < bounds.overscan.last ∧
    (newCellCount < bounds.maxToRenderPerBatch ∨ ¬LastWillAddMore bounds.prev window)
  preferred : bounds.fillPreference ≠ .none → firstMoves → lastMoves →
    ¬(FirstWillAddMore bounds.prev window ∧ LastWillAddMore bounds.prev window)
  both : bounds.fillPreference = .none → newCellCount < bounds.maxToRenderPerBatch →
    (bounds.overscan.first < window.first → firstMoves) ∧
      (window.last < bounds.overscan.last → lastMoves)

def addedCells (prev window : RenderLimits) (firstMoves lastMoves : Bool) : ℤ :=
  (if firstMoves ∧ FirstWillAddMore prev window then 1 else 0) +
    if lastMoves ∧ LastWillAddMore prev window then 1 else 0

section Growing

variable {bounds : WindowBounds} {window grown visible : RenderLimits} {newCellCount count : ℤ}
  {itemCount fuel : ℕ}

theorem growOnce_growth (grows : growOnce bounds window newCellCount = some (grown, count)) :
    ∃ firstMoves lastMoves, Growth bounds window newCellCount firstMoves lastMoves ∧
      grown = window.moved firstMoves lastMoves ∧
      count = newCellCount + addedCells bounds.prev window firstMoves lastMoves := by
  simp only [growOnce, Option.ite_none_left_eq_some, Option.some.injEq, Prod.mk.injEq] at grows
  obtain ⟨-, -, rfl, rfl⟩ := grows
  refine ⟨_, _, ?_, rfl, ?_⟩
  · constructor
    -- the conditions of the source, as they stand in `growOnce`
    case first => simp [FirstWillAddMore]; omega
    case last => simp [LastWillAddMore]; omega
    case preferred =>
      cases bounds.fillPreference <;> simp [FirstWillAddMore, LastWillAddMore] <;> omega
    case both =>
      intro noPreference unspent
      simp [noPreference, unspent]
  · simp only [addedCells, FirstWillAddMore, LastWillAddMore, Bool.and_eq_true, decide_eq_true_eq,
      Int.add_assoc]

theorem growOnce_within (grows : growOnce bounds window newCellCount = some (grown, count))
    (within : bounds.overscan.Contains window) :
    grown.Contains window ∧ bounds.overscan.Contains grown := by
  obtain ⟨firstMoves, lastMoves, growth, rfl, -⟩ := growOnce_growth grows
  have firstRoom := growth.first
  have lastRoom := growth.last
  simp only [RenderLimits.Contains, RenderLimits.moved] at within ⊢
  cases firstMoves <;> cases lastMoves <;> simp at firstRoom lastRoom ⊢ <;> omega

/-- **Rule for the loop.** What holds where it stops, and before a turn if it holds after it, holds at
the beginning. -/
theorem growWindow_induction {motive : RenderLimits → ℤ → Prop}
    (grows : growWindow bounds fuel window newCellCount = some grown)
    (stops : ∀ count, growOnce bounds grown count = none → motive grown count)
    (turn : ∀ window count next nextCount, growOnce bounds window count = some (next, nextCount) →
      motive next nextCount → motive window count) : motive window newCellCount := by
  induction fuel generalizing window newCellCount with
  | zero => cases grows
  | succ fuel ih =>
    rw [growWindow] at grows
    split at grows
    next ends =>
      cases grows
      exact stops newCellCount ends
    next next count once => exact turn window newCellCount next count once (ih grows)

theorem growWindow_within (grown' : growWindow bounds fuel window newCellCount = some grown)
    (within : bounds.overscan.Contains window) :
    grown.Contains window ∧ bounds.overscan.Contains grown := by
  revert within
  apply growWindow_induction (motive := fun window _ => bounds.overscan.Contains window →
    grown.Contains window ∧ bounds.overscan.Contains grown) grown'
  · intro _ _ within
    exact ⟨⟨le_refl _, le_refl _⟩, within⟩
  · intro window count next _ grows ih within
    have step := growOnce_within grows within
    have rest := ih step.2
    exact ⟨⟨rest.1.1.trans step.1.1, step.1.2.trans rest.1.2⟩, rest.2⟩

theorem growVisible_succeeds (within : bounds.overscan.Contains visible)
    (begins : 0 ≤ bounds.overscan.first) (ordered : visible.first ≤ visible.last)
    (ends : bounds.overscan.last < itemCount) :
    ∃ window, growWindow bounds (distance bounds.overscan visible + 1) visible
        (newRangeCount bounds.prev visible) = some window ∧
      growVisible bounds itemCount visible = some window ∧
      window.Contains visible ∧ bounds.overscan.Contains window := by
  obtain ⟨window, grown⟩ := Option.isSome_iff_exists.mp (growWindow_isSome bounds
    (distance bounds.overscan visible + 1) visible (newRangeCount bounds.prev visible) (by omega))
  obtain ⟨contains, inRange⟩ := growWindow_within grown within
  refine ⟨window, grown, ?_, contains, inRange⟩
  obtain ⟨firstGrown, lastGrown⟩ := contains
  obtain ⟨firstWithin, lastWithin⟩ := inRange
  rw [growVisible, grown, Option.bind_some, if_pos]
  omega

end Growing

section Ranges

variable {itemCount maxToRenderPerBatch : ℕ} {windowSize : ℚ} {getFrameMetrics : ℤ → FrameMetrics}
  {scrollMetrics : ListScrollMetrics} {prev : RenderLimits}

/-- How the window grows from the visible items. -/
def renderBounds (itemCount maxToRenderPerBatch : ℕ) (windowSize : ℚ) (prev : RenderLimits)
    (getFrameMetrics : ℤ → FrameMetrics) (scrollMetrics : ListScrollMetrics) : WindowBounds where
  prev := prev
  overscan := overscanRange itemCount windowSize getFrameMetrics scrollMetrics
  maxToRenderPerBatch := maxToRenderPerBatch
  fillPreference := fillPreference scrollMetrics

theorem overscanMargin_nonneg (windows : 1 ≤ windowSize) (visible : 0 ≤ scrollMetrics.visibleLength) :
    0 ≤ overscanMargin windowSize scrollMetrics := by
  have excess : 0 ≤ windowSize - 1 := by linarith
  have product := mul_nonneg excess visible
  rw [overscanMargin]
  linarith

theorem boundaries_increasing (windows : 1 ≤ windowSize)
    (visible : 0 ≤ scrollMetrics.visibleLength) :
    [overscanBegin windowSize scrollMetrics, visibleBegin scrollMetrics, visibleEnd scrollMetrics,
      overscanEnd windowSize scrollMetrics].Pairwise (· ≤ ·) := by
  have margin := overscanMargin_nonneg windows visible
  have begins : overscanBegin windowSize scrollMetrics ≤ visibleBegin scrollMetrics :=
    max_le (le_max_left _ _) (by linarith)
  have shows : visibleBegin scrollMetrics ≤ visibleEnd scrollMetrics := by
    rw [visibleEnd]
    linarith
  have ends : visibleEnd scrollMetrics ≤ overscanEnd windowSize scrollMetrics :=
    le_max_of_le_right (by linarith)
  simp only [pairwise_cons, mem_cons, not_mem_nil, or_false, forall_eq_or_imp,
    forall_eq, false_imp_iff, implies_true, List.Pairwise.nil, and_true]
  exact ⟨⟨begins, begins.trans shows, (begins.trans shows).trans ends⟩, ⟨shows, shows.trans ends⟩,
    ends⟩

theorem overscanBegin_eq : max 0 (max 0 scrollMetrics.offset -
    (1 - 1 / 2) * ((windowSize - 1) * scrollMetrics.visibleLength)) =
      overscanBegin windowSize scrollMetrics := by
  rw [overscanBegin, visibleBegin, overscanMargin]
  norm_num

variable (someItem : 1 ≤ itemCount)
include someItem

theorem computeWindowedRenderLimits_eq (windows : 1 ≤ windowSize)
    (visible : 0 ≤ scrollMetrics.visibleLength)
    (reaches : ¬BeforeOverscan itemCount windowSize getFrameMetrics scrollMetrics) :
    computeWindowedRenderLimits itemCount maxToRenderPerBatch windowSize prev getFrameMetrics
        scrollMetrics =
      growVisible (renderBounds itemCount maxToRenderPerBatch windowSize prev getFrameMetrics
          scrollMetrics) itemCount
        (visibleRange itemCount windowSize getFrameMetrics scrollMetrics maxToRenderPerBatch) := by
  have increasing := boundaries_increasing windows visible
  -- the loop over the items returns, whatever the offsets of the items are
  have found := elementsThatOverlapOffsets_eq getFrameMetrics increasing itemCount
  have positive : (0 : ℤ) ≤ (overscanRange itemCount windowSize getFrameMetrics
      scrollMetrics).first := by
    rw [overscanRange]
    cases firstReaching itemCount getFrameMetrics (overscanBegin windowSize scrollMetrics) <;> simp
  have somewhere : itemCount ≠ 0 := Nat.one_le_iff_ne_zero.mp someItem
  simp only [computeWindowedRenderLimits, if_neg somewhere, overscanBegin_eq]
  rw [← visibleBegin, ← visibleEnd, ← overscanMargin, ← overscanEnd]
  rw [BeforeOverscan] at reaches
  rw [if_neg reaches, found, Option.bind_some]
  simp only [map_cons, getD_cons_zero, getD_cons_succ]
  rw [overscanRange] at positive
  simp only [max_eq_right positive]
  rfl

theorem overscanBegin_reached (lengths : ∀ ii : ℕ, ii < itemCount → 0 ≤ (getFrameMetrics ii).length)
    (reaches : ¬BeforeOverscan itemCount windowSize getFrameMetrics scrollMetrics) :
    ∃ ii, firstReaching itemCount getFrameMetrics (overscanBegin windowSize scrollMetrics) =
      some ii := by
  have lastItem : ((itemCount - 1 : ℕ) : ℤ) = itemCount - 1 := by omega
  have length := lengths (itemCount - 1) (by omega)
  apply @firstReaching_isSome _ _ _ (itemCount - 1) (by omega)
  rw [BeforeOverscan, not_lt] at reaches
  rw [lastItem] at length ⊢
  linarith

theorem ranges_nested (windows : 1 ≤ windowSize)
    (visible : 0 ≤ scrollMetrics.visibleLength) (batch : 1 ≤ maxToRenderPerBatch)
    (lengths : ∀ ii : ℕ, ii < itemCount → 0 ≤ (getFrameMetrics ii).length)
    (reaches : ¬BeforeOverscan itemCount windowSize getFrameMetrics scrollMetrics) :
    let overscan := overscanRange itemCount windowSize getFrameMetrics scrollMetrics
    let shown := visibleRange itemCount windowSize getFrameMetrics scrollMetrics maxToRenderPerBatch
    overscan.Contains shown ∧ 0 ≤ overscan.first ∧ shown.first ≤ shown.last ∧
      overscan.last < itemCount := by
  obtain ⟨beginIndex, atBegin⟩ := overscanBegin_reached someItem lengths reaches
  have beginBound := firstReaching_lt atBegin
  have increasing := boundaries_increasing windows visible
  simp only [pairwise_cons, mem_cons, not_mem_nil, or_false, forall_eq_or_imp,
    forall_eq] at increasing
  obtain ⟨⟨begins, -, -⟩, ⟨shows, -⟩, ends, -⟩ := increasing
  simp only [RenderLimits.Contains, visibleRange, overscanRange, atBegin, Option.map_some,
    Option.getD_some]
  -- an offset that is reached has the ones before it reached no later
  cases atEnd : firstReaching itemCount getFrameMetrics (overscanEnd windowSize scrollMetrics) with
  | some =>
    obtain ⟨lastIndex, atLast, lastEnd⟩ := firstReaching_mono ends atEnd
    obtain ⟨firstIndex, atFirst, firstLast⟩ := firstReaching_mono shows atLast
    obtain ⟨_, sameBegin, beginFirst⟩ := firstReaching_mono begins atFirst
    rw [atBegin] at sameBegin
    cases sameBegin
    have endBound := firstReaching_lt atEnd
    simp only [atLast, atFirst, Option.map_some, Option.getD_some]
    omega
  | none =>
    -- the list ends in the overscan range
    cases atLast : firstReaching itemCount getFrameMetrics (visibleEnd scrollMetrics) with
    | some lastIndex =>
      obtain ⟨firstIndex, atFirst, firstLast⟩ := firstReaching_mono shows atLast
      obtain ⟨_, sameBegin, beginFirst⟩ := firstReaching_mono begins atFirst
      rw [atBegin] at sameBegin
      cases sameBegin
      have lastBound := firstReaching_lt atLast
      simp only [atFirst, Option.map_some, Option.map_none, Option.getD_some, Option.getD_none]
      omega
    | none =>
      -- the list ends in the viewport, and a batch of items is taken
      cases atFirst : firstReaching itemCount getFrameMetrics (visibleBegin scrollMetrics) with
      | some firstIndex =>
        obtain ⟨_, sameBegin, beginFirst⟩ := firstReaching_mono begins atFirst
        rw [atBegin] at sameBegin
        cases sameBegin
        have firstBound := firstReaching_lt atFirst
        simp only [Option.map_some, Option.map_none, Option.getD_some, Option.getD_none]
        omega
      | none =>
        simp only [Option.map_none, Option.getD_none]
        omega

theorem computeWindowedRenderLimits_grows (windows : 1 ≤ windowSize)
    (visible : 0 ≤ scrollMetrics.visibleLength) (batch : 1 ≤ maxToRenderPerBatch)
    (lengths : ∀ ii : ℕ, ii < itemCount → 0 ≤ (getFrameMetrics ii).length) (prev : RenderLimits)
    (reaches : ¬BeforeOverscan itemCount windowSize getFrameMetrics scrollMetrics) :
    let bounds :=
      renderBounds itemCount maxToRenderPerBatch windowSize prev getFrameMetrics scrollMetrics
    let shown := visibleRange itemCount windowSize getFrameMetrics scrollMetrics maxToRenderPerBatch
    bounds.overscan.Contains shown ∧ shown.first ≤ shown.last ∧
      ∃ window, growWindow bounds (distance bounds.overscan shown + 1) shown
          (newRangeCount bounds.prev shown) = some window ∧
        computeWindowedRenderLimits itemCount maxToRenderPerBatch windowSize prev getFrameMetrics
          scrollMetrics = some window := by
  intro bounds shown
  obtain ⟨nested, begins, ordered, ends⟩ :=
    ranges_nested someItem windows visible batch lengths reaches
  obtain ⟨window, grows, grown, -⟩ :=
    @growVisible_succeeds bounds shown _ nested begins ordered ends
  refine ⟨nested, ordered, window, grows, ?_⟩
  rw [computeWindowedRenderLimits_eq someItem windows visible reaches, grown]

theorem computeWindowedRenderLimits_before
    (passed : BeforeOverscan itemCount windowSize getFrameMetrics scrollMetrics) :
    computeWindowedRenderLimits itemCount maxToRenderPerBatch windowSize prev getFrameMetrics
        scrollMetrics = some ⟨max 0 (itemCount - 1 - maxToRenderPerBatch), itemCount - 1⟩ := by
  have somewhere : itemCount ≠ 0 := Nat.one_le_iff_ne_zero.mp someItem
  rw [BeforeOverscan, ← overscanBegin_eq] at passed
  simp only [computeWindowedRenderLimits, if_neg somewhere, if_pos passed]

/-- A window is found. Unless the list ends before the overscan range, it has the visible items and
lies in the overscan range. -/
theorem computeWindowedRenderLimits_succeeds (windows : 1 ≤ windowSize)
    (visible : 0 ≤ scrollMetrics.visibleLength) (batch : 1 ≤ maxToRenderPerBatch)
    (lengths : ∀ ii : ℕ, ii < itemCount → 0 ≤ (getFrameMetrics ii).length) (prev : RenderLimits) :
    ∃ window, computeWindowedRenderLimits itemCount maxToRenderPerBatch windowSize prev
        getFrameMetrics scrollMetrics = some window ∧
      0 ≤ window.first ∧ window.first ≤ window.last ∧ window.last ≤ itemCount - 1 ∧
      (¬BeforeOverscan itemCount windowSize getFrameMetrics scrollMetrics →
        window.Contains (visibleRange itemCount windowSize getFrameMetrics scrollMetrics
            maxToRenderPerBatch) ∧
          (overscanRange itemCount windowSize getFrameMetrics scrollMetrics).Contains window) := by
  by_cases reaches : BeforeOverscan itemCount windowSize getFrameMetrics scrollMetrics
  · -- the last items are rendered without looking at any frame
    refine ⟨_, computeWindowedRenderLimits_before someItem reaches, ?_⟩
    simp only [reaches, not_true_eq_false, false_implies, and_true]
    omega
  · obtain ⟨nested, -, window, grows, computed⟩ :=
      computeWindowedRenderLimits_grows someItem windows visible batch lengths prev reaches
    obtain ⟨contains, inRange⟩ := growWindow_within grows nested
    have checked := computed
    rw [computeWindowedRenderLimits_eq someItem windows visible reaches] at checked
    obtain ⟨first, order, last⟩ := growVisible_inRange checked
    exact ⟨window, computed, first, order, by omega, fun _ => ⟨contains, inRange⟩⟩

end Ranges

/-! ### A list that ends in the viewport -/

/-- A part of the item is in the viewport. -/
def Overlaps (frame : FrameMetrics) (scrollMetrics : ListScrollMetrics) : Prop :=
  frame.offset ≤ visibleEnd scrollMetrics ∧ visibleBegin scrollMetrics ≤ frame.offset + frame.length

def tenEach (ii : ℤ) : FrameMetrics := ⟨10, 10 * ii⟩

theorem computeWindowedRenderLimits_succeeds_tenEach :
    ∃ window, computeWindowedRenderLimits 2 1 1 ⟨0, -1⟩ tenEach { visibleLength := 100 } =
        some window ∧
      0 ≤ window.first ∧ window.first ≤ window.last ∧ window.last ≤ 2 - 1 ∧
      (¬BeforeOverscan 2 1 tenEach { visibleLength := 100 } →
        window.Contains (visibleRange 2 1 tenEach { visibleLength := 100 } 1) ∧
          (overscanRange 2 1 tenEach { visibleLength := 100 }).Contains window) :=
  computeWindowedRenderLimits_succeeds (by decide) (by decide +kernel) (by decide +kernel) (by decide)
    (fun _ _ => (by decide +kernel : (0 : ℚ) ≤ 10)) _

theorem tenEach_not_all_visible : ¬BeforeOverscan 2 1 tenEach { visibleLength := 100 } ∧ ¬∃ window,
      computeWindowedRenderLimits 2 1 1 ⟨0, -1⟩ tenEach { visibleLength := 100 } = some window ∧
        ∀ ii : ℕ, ii < 2 → Overlaps (tenEach ii) { visibleLength := 100 } →
          window.first ≤ ii ∧ ii ≤ window.last := by
  refine ⟨by unfold BeforeOverscan; decide +kernel, ?_⟩
  rintro ⟨window, computed, shows⟩
  have only : computeWindowedRenderLimits 2 1 1 ⟨0, -1⟩ tenEach { visibleLength := 100 } =
      some ⟨0, 0⟩ := by decide +kernel
  rw [only, Option.some_inj] at computed
  subst computed
  have second := shows 1 (by decide) (by unfold Overlaps; decide +kernel)
  exact absurd second.2 (by decide)

end VirtualizeUtils

end ReactNative


