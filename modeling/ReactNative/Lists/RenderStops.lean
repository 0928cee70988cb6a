import ReactNative.Lists.RenderBatches

/-! A full batch lets the window grow over items that are rendered already, but the test looks at
the end of the window and not at the item beyond it. -/
namespace ReactNative

open Option

namespace RenderLimits

variable (window : RenderLimits)

def mirror : RenderLimits := ⟨-window.last, -window.first⟩

@[simp] theorem mirror_first : window.mirror.first = -window.last := rfl

@[simp] theorem mirror_last : window.mirror.last = -window.first := rfl

end RenderLimits

namespace FillPreference

def mirror : FillPreference → FillPreference
  | .after => .before
  | .before => .after
  | .none => .none

variable {preference : FillPreference}

theorem mirror_eq_after : preference.mirror = .after ↔ preference = .before := by
  cases preference <;> simp [mirror]

theorem mirror_eq_before : preference.mirror = .before ↔ preference = .after := by
  cases preference <;> simp [mirror]

end FillPreference

namespace VirtualizeUtils

namespace WindowBounds

def mirror (bounds : WindowBounds) : WindowBounds where
  prev := bounds.prev.mirror
  overscan := bounds.overscan.mirror
  maxToRenderPerBatch := bounds.maxToRenderPerBatch
  fillPreference := bounds.fillPreference.mirror

end WindowBounds

/-- No item next to the window was rendered before, unless it is out of the overscan range. -/
def KeepsRendered (overscan prev window : RenderLimits) : Prop :=
  (overscan.first < window.first → ¬(prev.first ≤ window.first - 1 ∧ window.first - 1 ≤ prev.last)) ∧
    (window.last < overscan.last → ¬(prev.first ≤ window.last + 1 ∧ window.last + 1 ≤ prev.last))

variable (bounds : WindowBounds)

def companion (window : RenderLimits) (moves : ℤ) : ℤ :=
  match bounds.fillPreference with
  | .after => bounds.overscan.last - window.last
  | .before => 0
  | .none => min moves (bounds.overscan.last - window.last)

/-- The previous window is before this one, and the cells fill the batch when the first end has got
beside it and not one move earlier. -/
def FillsBeside (window : RenderLimits) (newCellCount : ℤ) : Prop :=
  let apart := window.first - (bounds.prev.last + 1)
  bounds.prev.first ≤ bounds.prev.last ∧ bounds.overscan.first ≤ bounds.prev.last ∧ 0 ≤ apart ∧
    bounds.maxToRenderPerBatch ≤ newCellCount + apart + companion bounds window apart ∧
    (apart = 0 ∨
      newCellCount + (apart - 1) + companion bounds window (apart - 1) < bounds.maxToRenderPerBatch)

/-- One of the two ends stops beside the previous window. -/
def StopsBeside (visible : RenderLimits) : Prop :=
  FillsBeside bounds visible (newRangeCount bounds.prev visible) ∨
    FillsBeside bounds.mirror visible.mirror (newRangeCount bounds.prev visible)

variable {bounds : WindowBounds} {prev window grown visible : RenderLimits}
  {newCellCount count : ℤ} {fuel : ℕ}

theorem growOnce_mirror : growOnce bounds.mirror window.mirror newCellCount =
      (growOnce bounds window newCellCount).map fun (grown, count) => (grown.mirror, count) := by
  obtain ⟨prev, overscan, -, -⟩ := bounds
  have firstAdds : (-window.last ≤ -prev.last ∨ -window.last > -prev.first) ↔
      (window.last ≥ prev.last ∨ window.last < prev.first) := by omega
  have lastAdds : (-window.first ≥ -prev.first ∨ -window.first < -prev.last) ↔
      (window.first ≤ prev.first ∨ window.first > prev.last) := by omega
  have filled : (-window.last ≤ -overscan.last ∧ -window.first ≥ -overscan.first) ↔
      (window.first ≤ overscan.first ∧ window.last ≥ overscan.last) := by omega
  have firstRoom : -window.last > -overscan.last ↔ window.last < overscan.last := by omega
  have lastRoom : -window.first < -overscan.first ↔ window.first > overscan.first := by omega
  simp only [growOnce, WindowBounds.mirror, RenderLimits.mirror_first, RenderLimits.mirror_last,
    firstAdds, lastAdds, filled, firstRoom, lastRoom, FillPreference.mirror_eq_after,
    FillPreference.mirror_eq_before, apply_ite (Option.map _), map_none,
    map_some]
  have firstEnd : -(window.last + 1) = -window.last - 1 := by omega
  have lastEnd : -(window.first - 1) = -window.first + 1 := by omega
  refine if_congr Iff.rfl rfl (if_congr ?_ rfl ?_)
  · rw [Bool.and_right_comm]
    congr!
  · simp only [RenderLimits.mirror, apply_ite Neg.neg, firstEnd, lastEnd]
    rw [Int.add_right_comm]
    congr!

theorem growWindow_mirror : growWindow bounds.mirror fuel window.mirror newCellCount =
      (growWindow bounds fuel window newCellCount).map RenderLimits.mirror := by
  induction fuel generalizing window newCellCount with
  | zero => rfl
  | succ fuel ih =>
    rw [growWindow, growWindow, growOnce_mirror]
    cases growOnce bounds window newCellCount with
    | none => rfl
    | some => exact ih

/-! ### The first end -/

theorem growOnce_stops (stops : growOnce bounds window newCellCount = none)
    (room : bounds.overscan.first < window.first) :
    bounds.maxToRenderPerBatch ≤ newCellCount ∧ FirstWillAddMore bounds.prev window := by
  simp only [growOnce] at stops
  simp [FirstWillAddMore] at stops ⊢
  omega

/-- How the ends move while there is room for the first one and each cell is new. -/
def firstTurns (bounds : WindowBounds) (window : RenderLimits) : Bool :=
  bounds.fillPreference ≠ .after ∨ bounds.overscan.last ≤ window.last

def lastTurns (bounds : WindowBounds) (window : RenderLimits) : Bool :=
  bounds.fillPreference ≠ .before ∧ window.last < bounds.overscan.last

theorem growOnce_adding (room : bounds.overscan.first < window.first)
    (firstAdds : FirstWillAddMore bounds.prev window) (lastAdds : LastWillAddMore bounds.prev window)
    (unspent : newCellCount < bounds.maxToRenderPerBatch) :
    growOnce bounds window newCellCount =
      some (window.moved (firstTurns bounds window) (lastTurns bounds window),
        newCellCount + (if firstTurns bounds window then 1 else 0) +
          if lastTurns bounds window then 1 else 0) := by
  rw [FirstWillAddMore] at firstAdds
  rw [LastWillAddMore] at lastAdds
  simp only [growOnce, decide_eq_true firstAdds, decide_eq_true lastAdds, firstTurns, lastTurns]
  obtain ⟨prev, overscan, _, preference⟩ := bounds
  by_cases lastRoom : window.last < overscan.last <;> cases preference <;>
    simp [unspent, room, lastRoom, RenderLimits.moved]

theorem fillsBeside_step (grows : growOnce bounds window newCellCount = some (grown, count))
    (within : bounds.overscan.Contains window) (ordered : window.first ≤ window.last)
    (reaches : bounds.overscan.first ≤ bounds.prev.last) (apart : bounds.prev.last < window.first)
    (unspent : newCellCount < bounds.maxToRenderPerBatch) :
    FillsBeside bounds window newCellCount ↔ FillsBeside bounds grown count := by
  have lastAdds : LastWillAddMore bounds.prev window := .inl (by omega)
  rw [growOnce_adding (by omega) (.inr apart) lastAdds unspent, some_inj, Prod.mk.injEq] at grows
  obtain ⟨rfl, rfl⟩ := grows
  obtain ⟨-, lastWithin⟩ := within
  obtain ⟨prev, overscan, batch, preference⟩ := bounds
  dsimp only at reaches apart unspent lastWithin
  by_cases lastRoom : window.last < overscan.last <;> cases preference <;>
    simp [FillsBeside, companion, RenderLimits.moved, firstTurns, lastTurns, lastRoom] <;> omega

theorem growOnce_spent (firstAdds : FirstWillAddMore bounds.prev window)
    (lastAdds : LastWillAddMore bounds.prev window) (spent : bounds.maxToRenderPerBatch ≤ newCellCount) :
    growOnce bounds window newCellCount = none := by
  rw [FirstWillAddMore] at firstAdds
  rw [LastWillAddMore] at lastAdds
  simp [growOnce, firstAdds, lastAdds, spent]

section

variable (grows : growWindow bounds fuel window newCellCount = some grown)
include grows

theorem growWindow_beside (within : bounds.overscan.Contains window)
    (ordered : window.first ≤ window.last) (someItem : bounds.prev.first ≤ bounds.prev.last)
    (reaches : bounds.overscan.first ≤ bounds.prev.last) (apart : bounds.prev.last < window.first) :
    grown.first = bounds.prev.last + 1 ↔ FillsBeside bounds window newCellCount := by
  have lastAdds : LastWillAddMore bounds.prev window := .inl (by omega)
  induction fuel generalizing window newCellCount with
  | zero => cases grows
  | succ fuel ih =>
    rw [growWindow] at grows
    rcases le_or_gt (bounds.maxToRenderPerBatch : ℤ) newCellCount with spent | unspent
    · rw [growOnce_spent (.inr apart) lastAdds spent] at grows
      cases grows
      -- it stops here, so it stops beside the previous window if it is there
      obtain ⟨-, _⟩ := within
      simp only [FillsBeside, companion]
      cases bounds.fillPreference <;> dsimp only <;> omega
    · have once := growOnce_adding (by omega) (.inr apart) lastAdds unspent
      rw [once] at grows
      have stays := (growOnce_within once within).2
      rw [fillsBeside_step once within ordered reaches apart unspent]
      have movedOrdered : (window.moved (firstTurns bounds window) (lastTurns bounds window)).first ≤
          (window.moved (firstTurns bounds window) (lastTurns bounds window)).last :=
        moved_ordered ordered
      generalize window.moved _ _ = moved at *
      rcases lt_or_ge bounds.prev.last moved.first with still | beyond
      · exact ih grows stays movedOrdered still (.inl (by omega))
      · -- the first end has got over the gap
        have onwards := (growWindow_within grows stays).1.1
        refine iff_of_false (by omega) fun fills => ?_
        have apartStill := fills.2.2.1
        omega

theorem growWindow_ends : ∃ count, growOnce bounds grown count = none :=
  growWindow_induction (motive := fun _ _ => ∃ count, growOnce bounds grown count = none) grows
    (fun count ends => ⟨count, ends⟩) fun _ _ _ _ _ later => later

theorem firstEnd_keeps_iff (within : bounds.overscan.Contains window)
    (ordered : window.first ≤ window.last) :
    (bounds.overscan.first < grown.first →
        ¬(bounds.prev.first ≤ grown.first - 1 ∧ grown.first - 1 ≤ bounds.prev.last)) ↔
      ¬FillsBeside bounds window newCellCount := by
  obtain ⟨contains, -⟩ := growWindow_within grows within
  -- the only item before the window that the test lets go is the last one of the previous window
  have atEnd : bounds.overscan.first < grown.first →
      bounds.prev.first ≤ grown.first - 1 ∧ grown.first - 1 ≤ bounds.prev.last →
        grown.first = bounds.prev.last + 1 := by
    obtain ⟨count, ends⟩ := growWindow_ends grows
    intro room inside
    obtain ⟨-, isFirst | isAfter⟩ := growOnce_stops ends room
    all_goals omega
  by_cases beside : bounds.prev.first ≤ bounds.prev.last ∧
      bounds.overscan.first ≤ bounds.prev.last ∧ bounds.prev.last < window.first
  · obtain ⟨someItem, reaches, apart⟩ := beside
    rw [← growWindow_beside grows within ordered someItem reaches apart]
    constructor
    · intro keeps isBeside
      exact keeps (by omega) (by omega)
    · intro notBeside room inside
      exact notBeside (atEnd room inside)
  · refine iff_of_true (fun room inside => ?_) fun fills => ?_
    · have first := contains.1
      omega
    · obtain ⟨someItem, reaches, apart, -⟩ := fills
      omega

end

theorem contains_mirror {range : RenderLimits} (contains : range.Contains window) :
    range.mirror.Contains window.mirror := by
  obtain ⟨first, last⟩ := contains
  exact ⟨by simpa using last, by simpa using first⟩

theorem growWindow_keeps_iff
    (grows : growWindow bounds fuel visible (newRangeCount bounds.prev visible) = some grown)
    (within : bounds.overscan.Contains visible) (ordered : visible.first ≤ visible.last) :
    KeepsRendered bounds.overscan bounds.prev grown ↔ ¬StopsBeside bounds visible := by
  have mirrored : growWindow bounds.mirror fuel visible.mirror (newRangeCount bounds.prev visible) =
      some grown.mirror := by
    rw [growWindow_mirror, grows, map_some]
  have lastEnd := firstEnd_keeps_iff mirrored (contains_mirror within) (by simpa using ordered)
  rw [StopsBeside, not_or, ← firstEnd_keeps_iff grows within ordered, ← lastEnd, KeepsRendered]
  -- the item after the last one, counted from the other end, is the one before the first
  have sameRoom : bounds.mirror.overscan.first < grown.mirror.first ↔
      grown.last < bounds.overscan.last := neg_lt_neg_iff
  have sameItem : (bounds.mirror.prev.first ≤ grown.mirror.first - 1 ∧
      grown.mirror.first - 1 ≤ bounds.mirror.prev.last) ↔
      (bounds.prev.first ≤ grown.last + 1 ∧ grown.last + 1 ≤ bounds.prev.last) := by
    simp only [WindowBounds.mirror, RenderLimits.mirror_first, RenderLimits.mirror_last]
    omega
  rw [sameRoom, sameItem]

section Keeping

variable {itemCount maxToRenderPerBatch : ℕ} {windowSize : ℚ} {getFrameMetrics : ℤ → FrameMetrics}
  {scrollMetrics : ListScrollMetrics}

/-- What was rendered next to the window is kept exactly if no end stops beside it. -/
theorem rendered_kept_iff (someItem : 1 ≤ itemCount) (windows : 1 ≤ windowSize)
    (visible : 0 ≤ scrollMetrics.visibleLength) (batch : 1 ≤ maxToRenderPerBatch)
    (lengths : ∀ ii : ℕ, ii < itemCount → 0 ≤ (getFrameMetrics ii).length) (prev : RenderLimits)
    (reaches : ¬BeforeOverscan itemCount windowSize getFrameMetrics scrollMetrics) :
    (∃ window, computeWindowedRenderLimits itemCount maxToRenderPerBatch windowSize prev
        getFrameMetrics scrollMetrics = some window ∧
      KeepsRendered (overscanRange itemCount windowSize getFrameMetrics scrollMetrics) prev window) ↔
    ¬StopsBeside (renderBounds itemCount maxToRenderPerBatch windowSize prev getFrameMetrics
        scrollMetrics)
      (visibleRange itemCount windowSize getFrameMetrics scrollMetrics maxToRenderPerBatch) := by
  obtain ⟨nested, ordered, window, grows, computed⟩ :=
    computeWindowedRenderLimits_grows someItem windows visible batch lengths prev reaches
  rw [← growWindow_keeps_iff grows nested ordered, computed]
  simp only [some_inj, exists_eq_left']
  rfl

end Keeping

theorem rendered_kept_iff_middleOfFive :
    (∃ window, computeWindowedRenderLimits 5 1 5 ⟨0, 1⟩ tenEach middleOfFive = some window ∧
      KeepsRendered (overscanRange 5 5 tenEach middleOfFive) ⟨0, 1⟩ window) ↔
    ¬StopsBeside (renderBounds 5 1 5 ⟨0, 1⟩ tenEach middleOfFive)
      (visibleRange 5 5 tenEach middleOfFive 1) :=
  rendered_kept_iff (by decide) (by decide +kernel) (by decide +kernel) (by decide)
    (fun _ _ => (by decide +kernel : (0 : ℚ) ≤ 10)) _ (by unfold BeforeOverscan; decide +kernel)

theorem middleOfFive_drops : ¬BeforeOverscan 5 5 tenEach middleOfFive ∧ ¬∃ window,
      computeWindowedRenderLimits 5 1 5 ⟨0, 1⟩ tenEach middleOfFive = some window ∧
        KeepsRendered (overscanRange 5 5 tenEach middleOfFive) ⟨0, 1⟩ window := by
  refine ⟨by unfold BeforeOverscan; decide +kernel, ?_⟩
  rintro ⟨window, computed, keeps, -⟩
  have one : computeWindowedRenderLimits 5 1 5 ⟨0, 1⟩ tenEach middleOfFive = some ⟨2, 2⟩ := by
    decide +kernel
  rw [one, some_inj] at computed
  subst computed
  exact keeps (by decide +kernel) (by decide +kernel)

end VirtualizeUtils

end ReactNative


