import ReactNative.Lists.RenderWindow

/-! Both ends of the window may move in one turn, so the last cells that a batch allows may be one
too many. This happens when the window grows evenly and one more cell is allowed while both ends
bring one. -/
namespace ReactNative

namespace RenderLimits

def widened (window : RenderLimits) (turns : ℕ) : RenderLimits :=
  ⟨window.first - turns, window.last + turns⟩

end RenderLimits

namespace VirtualizeUtils

/-- Some items of the window were rendered before. -/
def Shares (prev window : RenderLimits) : Prop :=
  newRangeCount prev window < window.last - window.first + 1

instance (prev window : RenderLimits) : Decidable (Shares prev window) :=
  inferInstanceAs (Decidable (_ < _))

/-- After some turns one more cell is allowed, and both ends have room and bring a new one. The window
has not grown into the previous one on the way, since the turn in which it does so counts one cell
too many. -/
def Overshoots (bounds : WindowBounds) (visible : RenderLimits) : Prop :=
  bounds.fillPreference = .none ∧ ∃ turns : ℕ,
    bounds.overscan.first < visible.first - turns ∧ visible.last + turns < bounds.overscan.last ∧
    newRangeCount bounds.prev (visible.widened turns) + 1 = bounds.maxToRenderPerBatch ∧
    newRangeCount bounds.prev (visible.widened (turns + 1)) = bounds.maxToRenderPerBatch + 1 ∧
    (Shares bounds.prev visible ∨ ¬Shares bounds.prev (visible.widened (turns + 1)))

def Steady (bounds : WindowBounds) (window : RenderLimits) : Prop :=
  bounds.fillPreference ≠ .none ∨ window.first ≤ bounds.overscan.first ∨
    bounds.overscan.last ≤ window.last

variable {bounds : WindowBounds} {prev window grown : RenderLimits} {newCellCount count : ℤ}
  {firstMoves lastMoves : Bool} {fuel : ℕ}

theorem newRangeCount_moved (ordered : window.first ≤ window.last) :
    newRangeCount prev (window.moved firstMoves lastMoves) =
      newRangeCount prev window + addedCells prev window firstMoves lastMoves -
        if Shares prev (window.moved firstMoves lastMoves) ∧ ¬Shares prev window then 1 else 0 := by
  simp only [Shares, newRangeCount, addedCells, FirstWillAddMore, LastWillAddMore,
    RenderLimits.moved]
  cases firstMoves <;> cases lastMoves <;>
    simp only [Bool.false_eq_true, if_false, if_true, false_and, true_and] <;> split_ifs <;> omega

theorem newRangeCount_moved_le (ordered : window.first ≤ window.last) :
    newRangeCount prev (window.moved firstMoves lastMoves) ≤
      newRangeCount prev window + addedCells prev window firstMoves lastMoves := by
  rw [newRangeCount_moved ordered]
  split_ifs <;> omega

theorem moved_ordered (ordered : window.first ≤ window.last) :
    (window.moved firstMoves lastMoves).first ≤ (window.moved firstMoves lastMoves).last := by
  simp only [RenderLimits.moved]
  split_ifs <;> omega

theorem addedCells_le_two : addedCells prev window firstMoves lastMoves ≤ 2 := by
  rw [addedCells]
  split_ifs <;> omega

theorem Growth.addedCells_spent (growth : Growth bounds window newCellCount firstMoves lastMoves)
    (spent : bounds.maxToRenderPerBatch ≤ newCellCount) :
    addedCells bounds.prev window firstMoves lastMoves = 0 := by
  -- an end that moves although the batch is full is one at which no cell would be new
  have firstFree := growth.first
  have lastFree := growth.last
  rw [addedCells, if_neg, if_neg]
  · rfl
  · rintro ⟨moves, adds⟩
    exact (lastFree moves).2.elim (by omega) fun free => free adds
  · rintro ⟨moves, adds⟩
    exact (firstFree moves).2.elim (by omega) fun free => free adds

theorem Growth.addedCells_steady (growth : Growth bounds window newCellCount firstMoves lastMoves)
    (steady : Steady bounds window) : addedCells bounds.prev window firstMoves lastMoves ≤ 1 := by
  rw [addedCells]
  split_ifs with first last
  · rcases steady with preferred | firstAtEnd | lastAtEnd
    · exact absurd ⟨first.2, last.2⟩ (growth.preferred preferred first.1 last.1)
    · exact absurd (growth.first first.1).1 (by omega)
    · exact absurd (growth.last last.1).1 (by omega)
  all_goals omega

theorem steady_moved (steady : Steady bounds window) :
    Steady bounds (window.moved firstMoves lastMoves) := by
  rcases steady with preferred | firstAtEnd | lastAtEnd
  · exact .inl preferred
  · refine .inr (.inl ?_)
    simp only [RenderLimits.moved]
    split_ifs <;> omega
  · refine .inr (.inr ?_)
    simp only [RenderLimits.moved]
    split_ifs <;> omega

/-! ### A run of the loop -/

section

variable (grows : growWindow bounds fuel window newCellCount = some grown)
  (ordered : window.first ≤ window.last)
include grows ordered

theorem growWindow_spent (spent : bounds.maxToRenderPerBatch ≤ newCellCount) :
    newRangeCount bounds.prev grown ≤ newRangeCount bounds.prev window := by
  revert ordered spent
  apply growWindow_induction (motive := fun window count => window.first ≤ window.last →
    bounds.maxToRenderPerBatch ≤ count →
      newRangeCount bounds.prev grown ≤ newRangeCount bounds.prev window) grows
  · exact fun _ _ _ _ => le_refl _
  · intro window count next nextCount once ih ordered spent
    obtain ⟨firstMoves, lastMoves, growth, rfl, rfl⟩ := growOnce_growth once
    have none_added := growth.addedCells_spent spent
    have step := @newRangeCount_moved_le bounds.prev window firstMoves lastMoves ordered
    have rest := ih (moved_ordered ordered) (by omega)
    omega

theorem growWindow_count (unspent : newCellCount < bounds.maxToRenderPerBatch) :
    newRangeCount bounds.prev grown ≤
      newRangeCount bounds.prev window + (bounds.maxToRenderPerBatch + 1 - newCellCount) := by
  induction fuel generalizing window newCellCount with
  | zero => cases grows
  | succ fuel ih =>
    rw [growWindow] at grows
    split at grows
    next =>
      cases grows
      omega
    next next count once =>
      obtain ⟨firstMoves, lastMoves, -, rfl, rfl⟩ := growOnce_growth once
      have atMostTwo := @addedCells_le_two bounds.prev window firstMoves lastMoves
      have step := @newRangeCount_moved_le bounds.prev window firstMoves lastMoves ordered
      have stays := @moved_ordered window firstMoves lastMoves ordered
      -- the last turn with cells left may bring two where one was allowed
      rcases lt_or_ge (newCellCount + addedCells bounds.prev window firstMoves lastMoves)
        bounds.maxToRenderPerBatch with still | spent
      · have rest := ih grows stays still
        omega
      · have rest := growWindow_spent grows stays spent
        omega

theorem growWindow_steady (steady : Steady bounds window)
    (allowed : newCellCount ≤ bounds.maxToRenderPerBatch) :
    newRangeCount bounds.prev grown ≤
      newRangeCount bounds.prev window + (bounds.maxToRenderPerBatch - newCellCount) := by
  revert ordered steady allowed
  apply growWindow_induction (motive := fun window count => window.first ≤ window.last →
    Steady bounds window → count ≤ bounds.maxToRenderPerBatch → newRangeCount bounds.prev grown ≤
        newRangeCount bounds.prev window + (bounds.maxToRenderPerBatch - count)) grows
  · omega
  · intro window count next nextCount once ih ordered steady allowed
    obtain ⟨firstMoves, lastMoves, growth, rfl, rfl⟩ := growOnce_growth once
    have step := @newRangeCount_moved_le bounds.prev window firstMoves lastMoves ordered
    have atMostOne := growth.addedCells_steady steady
    have within : count + addedCells bounds.prev window firstMoves lastMoves ≤
        bounds.maxToRenderPerBatch := by
      rcases lt_or_ge count bounds.maxToRenderPerBatch with unspent | spent
      · omega
      · have none_added := growth.addedCells_spent spent
        omega
    have rest := ih (moved_ordered ordered) (steady_moved steady) within
    omega

end

/-! ### Even growth -/

theorem moved_widened (turns : ℕ) :
    (window.moved true true).widened turns = window.widened (turns + 1) := by
  simp only [RenderLimits.moved, RenderLimits.widened, if_true, RenderLimits.mk.injEq]
  omega

theorem widened_zero : window.widened 0 = window := by
  simp only [RenderLimits.widened, Nat.cast_zero, Int.sub_zero, Int.add_zero]

theorem newRangeCount_mono (ordered : window.first ≤ window.last)
    (contains : grown.Contains window) : newRangeCount prev window ≤ newRangeCount prev grown := by
  simp only [newRangeCount]
  obtain ⟨first, last⟩ := contains
  omega

theorem contains_widened (turns : ℕ) : (window.widened turns).Contains window := by
  simp only [RenderLimits.Contains, RenderLimits.widened]
  omega

theorem shares_widened (ordered : window.first ≤ window.last) (turns : ℕ)
    (shares : Shares prev window) : Shares prev (window.widened turns) := by
  simp only [Shares, newRangeCount, RenderLimits.widened] at shares ⊢
  omega

theorem not_overshoots_spent (ordered : window.first ≤ window.last)
    (spent : bounds.maxToRenderPerBatch ≤ newRangeCount bounds.prev window) :
    ¬Overshoots bounds window := by
  rintro ⟨-, turns, -, -, oneMore, -⟩
  have grows := @newRangeCount_mono bounds.prev _ _ ordered (contains_widened turns)
  omega

theorem not_overshoots_steady (steady : Steady bounds window) : ¬Overshoots bounds window := by
  rintro ⟨noPreference, turns, firstRoom, lastRoom, -⟩
  rcases steady with preferred | firstAtEnd | lastAtEnd
  · exact preferred noPreference
  all_goals omega

theorem not_overshoots_joining (ordered : window.first ≤ window.last)
    (joins : Shares bounds.prev (window.moved true true)) (apart : ¬Shares bounds.prev window) :
    ¬Overshoots bounds window := by
  rintro ⟨-, turns, -, -, -, -, shares | stillApart⟩
  · exact apart shares
  · rw [← moved_widened] at stillApart
    exact stillApart (shares_widened (moved_ordered ordered) turns joins)

theorem overshoots_moved (ordered : window.first ≤ window.last)
    (joinsNot : Shares bounds.prev (window.moved true true) → Shares bounds.prev window)
    (allowed : newRangeCount bounds.prev (window.moved true true) ≤ bounds.maxToRenderPerBatch) :
    Overshoots bounds window ↔ Overshoots bounds (window.moved true true) := by
  have first : (window.moved true true).first = window.first - 1 := rfl
  have last : (window.moved true true).last = window.last + 1 := rfl
  constructor
  · rintro ⟨noPreference, turns, firstRoom, lastRoom, oneMore, oneTooMany, sharing⟩
    cases turns with
    | zero =>
      -- not in this turn, which stays within the batch
      rw [← moved_widened, widened_zero] at oneTooMany
      omega
    | succ turns =>
      rw [← moved_widened] at oneMore oneTooMany sharing
      refine ⟨noPreference, turns, by omega, by omega, oneMore, oneTooMany, ?_⟩
      exact sharing.imp_left fun shares => by
        have joined := shares_widened ordered 1 shares
        rwa [← moved_widened, widened_zero] at joined
  · rintro ⟨noPreference, turns, firstRoom, lastRoom, oneMore, oneTooMany, sharing⟩
    rw [moved_widened] at oneMore oneTooMany sharing
    exact ⟨noPreference, turns + 1, by omega, by omega, oneMore, oneTooMany,
      sharing.imp_left joinsNot⟩

theorem growOnce_none (ends : growOnce bounds window newCellCount = none) :
    Steady bounds window ∨ bounds.maxToRenderPerBatch ≤ newCellCount := by
  simp only [growOnce, ite_eq_left_iff, reduceCtorEq, imp_false] at ends
  by_cases filled : window.first ≤ bounds.overscan.first ∧ window.last ≥ bounds.overscan.last
  · exact .inl (.inr (.inl filled.1))
  · right
    simp [filled] at ends
    exact ends.1

theorem growWindow_bounded_iff (ordered : window.first ≤ window.last)
    (within : bounds.overscan.Contains window)
    (grows : growWindow bounds fuel window (newRangeCount bounds.prev window) = some grown) :
    newRangeCount bounds.prev grown ≤
        max (bounds.maxToRenderPerBatch : ℤ) (newRangeCount bounds.prev window) ↔
      ¬Overshoots bounds window := by
  induction fuel generalizing window with
  | zero => cases grows
  | succ fuel ih =>
    rcases le_or_gt (bounds.maxToRenderPerBatch : ℤ) (newRangeCount bounds.prev window) with
      spent | unspent
    · -- the visible items alone fill the batch
      have bounded := growWindow_spent grows ordered spent
      exact iff_of_true (by omega) (not_overshoots_spent ordered spent)
    by_cases steady : Steady bounds window
    · have bounded := growWindow_steady grows ordered steady unspent.le
      exact iff_of_true (by omega) (not_overshoots_steady steady)
    rw [growWindow] at grows
    split at grows
    next ends => exact absurd (growOnce_none ends) (by simp [steady, unspent])
    next next count once =>
      have stepWithin := (growOnce_within once within).2
      obtain ⟨firstMoves, lastMoves, growth, rfl, rfl⟩ := growOnce_growth once
      simp only [Steady, not_or, not_not, not_le] at steady
      obtain ⟨noPreference, firstRoom, lastRoom⟩ := steady
      have both := growth.both noPreference unspent
      -- both ends have room and nothing is preferred, so both move
      obtain rfl : firstMoves = true := both.1 firstRoom
      obtain rfl : lastMoves = true := both.2 lastRoom
      have moved := @newRangeCount_moved bounds.prev window true true ordered
      have stays := @moved_ordered window true true ordered
      have atMostTwo := @addedCells_le_two bounds.prev window true true
      by_cases joins : Shares bounds.prev (window.moved true true) ∧ ¬Shares bounds.prev window
      · -- the count is one ahead from here on
        rw [if_pos joins] at moved
        refine iff_of_true ?_ (not_overshoots_joining ordered joins.1 joins.2)
        rcases lt_or_ge (newRangeCount bounds.prev window + addedCells bounds.prev window true true)
          bounds.maxToRenderPerBatch with still | full
        · have rest := growWindow_count grows stays still
          omega
        · have rest := growWindow_spent grows stays full
          omega
      · rw [if_neg joins] at moved
        rw [show newRangeCount bounds.prev window + addedCells bounds.prev window true true =
          newRangeCount bounds.prev (window.moved true true) by omega] at grows
        have joinsNot : Shares bounds.prev (window.moved true true) → Shares bounds.prev window := by
          simpa using joins
        rcases le_or_gt (newRangeCount bounds.prev (window.moved true true))
          bounds.maxToRenderPerBatch with allowed | tooMany
        · have rest := ih stays stepWithin grows
          rw [overshoots_moved ordered joinsNot allowed, ← rest]
          omega
        · -- this turn overshoots, and no later one takes a cell back
          have more := @newRangeCount_mono bounds.prev _ _ stays
            (growWindow_within grows stepWithin).1
          refine iff_of_false (by omega) (not_not.mpr ⟨noPreference, 0, by simpa using firstRoom,
            by simpa using lastRoom, ?_, ?_, ?_⟩)
          · rw [widened_zero]
            omega
          · rw [← moved_widened, widened_zero]
            omega
          · exact (Classical.em _).imp_right fun apart joined => apart (joinsNot joined)

section Batch

variable {itemCount maxToRenderPerBatch : ℕ} {windowSize : ℚ} {getFrameMetrics : ℤ → FrameMetrics}
  {scrollMetrics : ListScrollMetrics}

/-- A batch has no more new cells than it may have, or than are visible, exactly if the two ends do
not overshoot. -/
theorem newCells_bounded_iff (someItem : 1 ≤ itemCount) (windows : 1 ≤ windowSize)
    (visible : 0 ≤ scrollMetrics.visibleLength) (batch : 1 ≤ maxToRenderPerBatch)
    (lengths : ∀ ii : ℕ, ii < itemCount → 0 ≤ (getFrameMetrics ii).length) (prev : RenderLimits)
    (reaches : ¬BeforeOverscan itemCount windowSize getFrameMetrics scrollMetrics) :
    (∃ window, computeWindowedRenderLimits itemCount maxToRenderPerBatch windowSize prev
        getFrameMetrics scrollMetrics = some window ∧
      newRangeCount prev window ≤ max (maxToRenderPerBatch : ℤ) (newRangeCount prev
        (visibleRange itemCount windowSize getFrameMetrics scrollMetrics maxToRenderPerBatch))) ↔
    ¬Overshoots (renderBounds itemCount maxToRenderPerBatch windowSize prev getFrameMetrics
        scrollMetrics)
      (visibleRange itemCount windowSize getFrameMetrics scrollMetrics maxToRenderPerBatch) := by
  obtain ⟨nested, ordered, window, grows, computed⟩ :=
    computeWindowedRenderLimits_grows someItem windows visible batch lengths prev reaches
  rw [← growWindow_bounded_iff ordered nested grows, computed]
  simp only [Option.some_inj, exists_eq_left']
  rfl

end Batch

def middleOfFive : ListScrollMetrics := { offset := 21, visibleLength := 8 }

theorem newCells_bounded_iff_middleOfFive :
    (∃ window, computeWindowedRenderLimits 5 2 5 ⟨0, -1⟩ tenEach middleOfFive = some window ∧
      newRangeCount ⟨0, -1⟩ window ≤ max (2 : ℤ) (newRangeCount ⟨0, -1⟩
        (visibleRange 5 5 tenEach middleOfFive 2))) ↔
    ¬Overshoots (renderBounds 5 2 5 ⟨0, -1⟩ tenEach middleOfFive)
      (visibleRange 5 5 tenEach middleOfFive 2) :=
  newCells_bounded_iff (by decide) (by decide +kernel) (by decide +kernel) (by decide)
    (fun _ _ => (by decide +kernel : (0 : ℚ) ≤ 10)) _ (by unfold BeforeOverscan; decide +kernel)

theorem middleOfFive_overshoots : ¬BeforeOverscan 5 5 tenEach middleOfFive ∧ ¬∃ window,
      computeWindowedRenderLimits 5 2 5 ⟨0, -1⟩ tenEach middleOfFive = some window ∧
        newRangeCount ⟨0, -1⟩ window ≤ max (2 : ℤ) (newRangeCount ⟨0, -1⟩
          (visibleRange 5 5 tenEach middleOfFive 2)) := by
  refine ⟨by unfold BeforeOverscan; decide +kernel, ?_⟩
  rintro ⟨window, computed, bounded⟩
  have three : computeWindowedRenderLimits 5 2 5 ⟨0, -1⟩ tenEach middleOfFive = some ⟨1, 3⟩ := by
    decide +kernel
  rw [three, Option.some_inj] at computed
  subst computed
  exact absurd bounded (by decide +kernel)

end VirtualizeUtils

end ReactNative

