import Mathlib.Algebra.BigOperators.Group.List.Basic
import Mathlib.Data.Int.Range
import Mathlib.Tactic.Linarith
import Mathlib.Tactic.Ring
import ReactNative.Lists.VirtualizedList

/-! The initial cells, the sticky header before the window if there is one, and the cells of the
window are pushed in this order, and spacers stand for the items between them and after the window.
-/
namespace ReactNative

open List

structure RenderedListProps extends VirtualizedListProps where
  stickyHeaderIndices : List ℤ := []
  hasListHeader : Bool := false
  hasListEmpty : Bool := false
  hasListFooter : Bool := false

structure ListFrames where
  getFrameMetrics : ℤ → FrameMetrics
  hasItemLayout : Bool := true
  highestMeasuredFrameIndex : ℤ := 0

inductive SpacerKey where
  | stickyLead
  | stickyTrail
  | leadSpacer
  | tailSpacer
  deriving DecidableEq

inductive ListElement where
  | listHeader
  | cell (index : ℤ)
  | spacer (key : SpacerKey) (length : ℚ)
  | listEmpty
  | listFooter
  deriving DecidableEq

structure RenderedCells where
  cells : List ListElement := []
  stickyHeaderIndices : List ℕ := []
  deriving DecidableEq

namespace VirtualizedList

variable (props : RenderedListProps) (frames : ListFrames)

/-- Throws if there is no item at the index. -/
def getFrameMetricsApprox (index : ℤ) : Option FrameMetrics :=
  if props.itemCount > index then some (frames.getFrameMetrics index) else none

def stickyOffset : ℤ :=
  if props.hasListHeader then 1 else 0

variable (rendered : RenderedCells)

def push (element : ListElement) : RenderedCells :=
  { rendered with cells := rendered.cells ++ [element] }

def pushCell (ii : ℤ) : RenderedCells :=
  push
    (if ii + stickyOffset props ∈ props.stickyHeaderIndices then
      { rendered with
        stickyHeaderIndices := rendered.stickyHeaderIndices ++ [rendered.cells.length] }
    else rendered)
    (.cell ii)

def pushCells (first last : ℤ) (rendered : RenderedCells) : RenderedCells :=
  let last := min ((props.itemCount : ℤ) - 1) last
  (Int.range first (last + 1)).foldl (pushCell props) rendered

def lastInitialIndex : ℤ :=
  if props.initialScrollIndex ≠ 0 then -1 else props.initialNumToRender - 1

/-- The last sticky header in the virtualized space. -/
def stickyInSpace (firstAfterInitial : ℤ) : Option ℤ :=
  (Int.range (lastInitialIndex props + 1) firstAfterInitial).reverse.find? fun ii =>
    ii + stickyOffset props ∈ props.stickyHeaderIndices

/-- What stands for the items between the initial cells and the window. -/
def pushLead (state : RenderLimits)
    (firstAfterInitial : ℤ) (rendered : RenderedCells) : Option RenderedCells :=
  if !props.disableVirtualization && state.first > lastInitialIndex props + 1 then
    match stickyInSpace props firstAfterInitial with
    | some ii => do
      let initBlock ← getFrameMetricsApprox props frames (lastInitialIndex props)
      let stickyBlock ← getFrameMetricsApprox props frames ii
      let leadSpace := stickyBlock.offset - initBlock.offset -
        (if props.initialScrollIndex ≠ 0 then 0 else initBlock.length)
      let sticky := pushCells props ii ii (push rendered (.spacer .stickyLead leadSpace))
      let firstBlock ← getFrameMetricsApprox props frames state.first
      let trailSpace := firstBlock.offset - (stickyBlock.offset + stickyBlock.length)
      return push sticky (.spacer .stickyTrail trailSpace)
    | none => do
      let initBlock ← getFrameMetricsApprox props frames (lastInitialIndex props)
      let firstBlock ← getFrameMetricsApprox props frames state.first
      let firstSpace := firstBlock.offset - (initBlock.offset + initBlock.length)
      return push rendered (.spacer .leadSpacer firstSpace)
  else some rendered

/-- What stands for the items after the window. Those that are not measured have no space. -/
def pushTail (state : RenderLimits) (rendered : RenderedCells) : Option RenderedCells :=
  if !props.disableVirtualization && state.last < (props.itemCount : ℤ) - 1 then do
    let lastFrame ← getFrameMetricsApprox props frames state.last
    let lastItem := (props.itemCount : ℤ) - 1
    let endFrame ← getFrameMetricsApprox props frames
      (if frames.hasItemLayout then lastItem else min lastItem frames.highestMeasuredFrameIndex)
    let tailSpacerLength :=
      endFrame.offset + endFrame.length - (lastFrame.offset + lastFrame.length)
    return push rendered (.spacer .tailSpacer tailSpacerLength)
  else some rendered

def pushBody (state : RenderLimits) (rendered : RenderedCells) : Option RenderedCells := do
  let initial := pushCells props 0 (lastInitialIndex props) rendered
  let firstAfterInitial := max (lastInitialIndex props + 1) state.first
  let lead ← pushLead props frames state firstAfterInitial initial
  pushTail props frames state (pushCells props firstAfterInitial state.last lead)

def pushHeader : RenderedCells where
  cells := if props.hasListHeader then [.listHeader] else []
  stickyHeaderIndices :=
    if props.hasListHeader && decide (0 ∈ props.stickyHeaderIndices) then [0] else []

/-- The children of the scroll view. -/
def renderElements (state : RenderLimits) : Option RenderedCells := do
  let header := pushHeader props
  let body ← if props.itemCount > 0 then pushBody props frames state header
    else some (if props.hasListEmpty then push header .listEmpty else header)
  return if props.hasListFooter then push body .listFooter else body

end VirtualizedList

/-! ### Spans of elements -/

namespace ListElement

/-- A cell has the length of an item. What is around the items is not counted. -/
def extent (length : ℚ) : ListElement → ℚ
  | .cell _ => length
  | .spacer _ space => space
  | _ => 0

def index? : ListElement → Option ℤ
  | .cell index => some index
  | _ => none

end ListElement

def extent (length : ℚ) (elements : List ListElement) : ℚ :=
  (elements.map (ListElement.extent length)).sum

def cellIndices (elements : List ListElement) : List ℤ := elements.filterMap ListElement.index?

/-- Each cell comes after as much as there are items before it. -/
def CellsPlaced (length : ℚ) (start : ℤ) (elements : List ListElement) : Prop :=
  ∀ (before after : List ListElement) (ii : ℤ), elements = before ++ .cell ii :: after →
    extent length before = length * (ii - start)

structure Spans (length : ℚ) (start stop : ℤ) (elements : List ListElement) : Prop where
  total : extent length elements = length * (stop - start)
  placed : CellsPlaced length start elements
  inside : ∀ ii ∈ cellIndices elements, start ≤ ii ∧ ii < stop
  increasing : (cellIndices elements).Pairwise (· < ·)

section Spans

variable {length : ℚ} {start middle stop : ℤ} {front back : List ListElement}

@[simp] theorem extent_nil : extent length [] = 0 := rfl

@[simp] theorem extent_cons (element : ListElement) (elements : List ListElement) :
    extent length (element :: elements) = element.extent length + extent length elements := rfl

@[simp] theorem extent_append :
    extent length (front ++ back) = extent length front + extent length back := by
  rw [extent, map_append, sum_append, ← extent, ← extent]

@[simp] theorem cellIndices_append :
    cellIndices (front ++ back) = cellIndices front ++ cellIndices back :=
  filterMap_append

theorem spans_nil (start : ℤ) : Spans length start start [] where
  total := by simp
  placed before after ii split := by simp at split
  inside ii member := by cases member
  increasing := .nil

theorem spans_cell (ii : ℤ) : Spans length ii (ii + 1) [.cell ii] where
  total := by simp [ListElement.extent]
  placed before after jj split := by
    cases before with
    | nil =>
      cases split
      simp
    | cons _ before => simp at split
  inside jj member := by
    obtain rfl : jj = ii := mem_singleton.mp member
    omega
  increasing := pairwise_singleton _ _

theorem spans_spacer (key : SpacerKey) {space : ℚ} (fits : space = length * (stop - start)) :
    Spans length start stop [.spacer key space] where
  total := by simp [ListElement.extent, fits]
  placed before after jj split := by
    cases before with
    | nil => cases split
    | cons _ before => simp at split
  inside jj member := by cases member
  increasing := .nil

theorem spans_around {elements : List ListElement} (none_counted : ∀ element ∈ elements,
    element.extent length = 0 ∧ element.index? = none) (start : ℤ) :
    Spans length start start elements where
  total := by
    rw [extent, sum_eq_zero]
    · ring
    · rintro space member
      obtain ⟨element, isElement, rfl⟩ := mem_map.mp member
      exact (none_counted element isElement).1
  placed before after ii split := by
    have counted := (none_counted (.cell ii) (by simp [split])).2
    cases counted
  inside ii member := by
    obtain ⟨element, isElement, isIndex⟩ := mem_filterMap.mp member
    rw [(none_counted element isElement).2] at isIndex
    cases isIndex
  increasing := by
    rw [cellIndices, filterMap_eq_nil_iff.mpr fun element member => (none_counted element member).2]
    exact .nil

theorem Spans.append (first : Spans length start middle front) (second : Spans length middle stop back)
    (ordered : start ≤ middle) (orderedToo : middle ≤ stop) :
    Spans length start stop (front ++ back) where
  total := by
    rw [extent_append, first.total, second.total]
    ring
  placed before after ii split := by
    rcases append_eq_append_iff.mp split with ⟨rest, rfl, isBack⟩ | ⟨rest, isFront, isBack⟩
    · -- the cell is in the second part
      rw [extent_append, first.total, second.placed rest after ii isBack]
      ring
    · cases rest with
      | nil =>
        rw [append_nil] at isFront
        have placed := second.placed [] after ii isBack.symm
        rw [extent_nil] at placed
        rw [← isFront, first.total]
        linarith
      | cons _ rest =>
        obtain ⟨rfl, -⟩ := List.cons.inj isBack
        exact first.placed before rest ii isFront
  inside ii member := by
    rw [cellIndices_append, mem_append] at member
    rcases member with inFront | inBack
    · have bounds := first.inside ii inFront
      omega
    · have bounds := second.inside ii inBack
      omega
  increasing := by
    rw [cellIndices_append, pairwise_append]
    refine ⟨first.increasing, second.increasing, fun ii inFront jj inBack => ?_⟩
    have before := first.inside ii inFront
    have after := second.inside jj inBack
    omega

def runOfCells (start stop : ℤ) : List ListElement := (Int.range start stop).map .cell

theorem cellIndices_runOfCells : cellIndices (runOfCells start stop) = Int.range start stop := by
  rw [runOfCells, cellIndices, filterMap_map]
  exact filterMap_some

theorem runOfCells_succ (start : ℤ) (count : ℕ) : runOfCells start (start + (count + 1 : ℕ)) =
      runOfCells start (start + count) ++ [.cell (start + count)] := by
  have more : (start + ((count + 1 : ℕ) : ℤ) - start).toNat = count + 1 := by omega
  have fewer : (start + (count : ℤ) - start).toNat = count := by omega
  rw [runOfCells, runOfCells, Int.range, Int.range, more, fewer, range_succ]
  simp

theorem spans_runOfCells (ordered : start ≤ stop) :
    Spans length start stop (runOfCells start stop) := by
  obtain ⟨count, rfl⟩ := Int.le.dest ordered
  induction count with
  | zero => simpa [runOfCells, Int.range] using spans_nil start
  | succ count ih =>
    rw [runOfCells_succ, Nat.cast_succ, ← Int.add_assoc]
    exact (ih (by omega)).append (spans_cell _) (by omega) (by omega)

theorem runOfCells_empty (ordered : stop ≤ start) : runOfCells start stop = [] := by
  rw [runOfCells, Int.range, Int.toNat_of_nonpos (by omega)]
  rfl

end Spans

/-! ### What is pushed -/

def uniformFrames (length : ℚ) : ListFrames where
  getFrameMetrics ii := ⟨length, length * ii⟩

/-- The cells lie where the items are, and none that should be rendered is missing. -/
structure LaysOut (length : ℚ) (props : RenderedListProps) (state : RenderLimits)
    (elements : List ListElement) : Prop where
  window : ∀ ii, state.first ≤ ii → ii ≤ state.last → ii ∈ cellIndices elements
  initial : ∀ ii, 0 ≤ ii → ii ≤ VirtualizedList.lastInitialIndex props → ii < props.itemCount →
    ii ∈ cellIndices elements
  increasing : (cellIndices elements).Pairwise (· < ·)
  placed : CellsPlaced length 0 elements
  total : extent length elements = length * props.itemCount

namespace VirtualizedList

variable (props : RenderedListProps)

/-- A sticky header is rendered before the window of a list that begins at a scroll index. -/
def SticksAfterScroll (state : RenderLimits) : Prop :=
  props.initialScrollIndex ≠ 0 ∧ ∃ ii, 0 ≤ ii ∧ ii < state.first ∧
    ii + stickyOffset props ∈ props.stickyHeaderIndices

def EndsAmongInitial (state : RenderLimits) : Prop :=
  state.last < min (lastInitialIndex props) (props.itemCount - 1)

variable {props : RenderedListProps} {state : RenderLimits} {length : ℚ} {rendered : RenderedCells}

theorem pushCells_cells (first last : ℤ) : (pushCells props first last rendered).cells =
      rendered.cells ++ runOfCells first (min ((props.itemCount : ℤ) - 1) last + 1) := by
  rw [pushCells, runOfCells]
  induction Int.range first (min ((props.itemCount : ℤ) - 1) last + 1) generalizing rendered with
  | nil => simp
  | cons _ _ ih =>
    rw [foldl_cons, ih, map_cons, ← singleton_append, ← append_assoc, pushCell]
    split <;> rfl

theorem getFrameMetricsApprox_uniform {index : ℤ} (inside : index < props.itemCount) :
    getFrameMetricsApprox props (uniformFrames length) index = some ⟨length, length * index⟩ :=
  if_pos inside

def leadElements (length : ℚ) (props : RenderedListProps) (state : RenderLimits) :
    List ListElement :=
  if state.first > lastInitialIndex props + 1 then
    match stickyInSpace props state.first with
    | some ii =>
      [.spacer .stickyLead (length * ii - length * lastInitialIndex props -
          (if props.initialScrollIndex ≠ 0 then 0 else length)), .cell ii,
        .spacer .stickyTrail (length * state.first - (length * ii + length))]
    | none =>
      [.spacer .leadSpacer
        (length * state.first - (length * lastInitialIndex props + length))]
  else []

def tailElements (length : ℚ) (props : RenderedListProps) (state : RenderLimits) :
    List ListElement :=
  if state.last < (props.itemCount : ℤ) - 1 then
    [.spacer .tailSpacer (length * (props.itemCount - 1 : ℤ) + length -
      (length * state.last + length))]
  else []

def bodyElements (length : ℚ) (props : RenderedListProps) (state : RenderLimits) :
    List ListElement :=
  runOfCells 0 (min ((props.itemCount : ℤ) - 1) (lastInitialIndex props) + 1) ++
    leadElements length props state ++
    runOfCells (max (lastInitialIndex props + 1) state.first)
      (min ((props.itemCount : ℤ) - 1) state.last + 1) ++
    tailElements length props state

variable {ii last : ℤ}

theorem stickyInSpace_some (found : stickyInSpace props last = some ii) :
    lastInitialIndex props < ii ∧ ii < last ∧
      ii + stickyOffset props ∈ props.stickyHeaderIndices := by
  have sticky := find?_some found
  have member := mem_of_find?_eq_some found
  rw [mem_reverse, Int.mem_range_iff] at member
  exact ⟨by omega, member.2, by simpa using sticky⟩

theorem stickyInSpace_none (none_found : stickyInSpace props last = none)
    (after : lastInitialIndex props < ii) (before : ii < last) :
    ii + stickyOffset props ∉ props.stickyHeaderIndices := by
  have unsticky := find?_eq_none.mp none_found ii
    (by rw [mem_reverse, Int.mem_range_iff]; omega)
  simpa using unsticky

section

variable (virtualized : props.disableVirtualization = false)
include virtualized

theorem pushLead_uniform (inside : state.first < props.itemCount) :
    ∃ lead, pushLead props (uniformFrames length) state
        (max (lastInitialIndex props + 1) state.first) rendered = some lead ∧
      lead.cells = rendered.cells ++ leadElements length props state := by
  by_cases beyond : state.first > lastInitialIndex props + 1
  · rw [pushLead, leadElements, if_pos beyond, if_pos (by simp [virtualized, beyond]),
      max_eq_right beyond.le]
    cases found : stickyInSpace props state.first with
    | none =>
      rw [getFrameMetricsApprox_uniform (by omega), getFrameMetricsApprox_uniform inside]
      exact ⟨_, rfl, rfl⟩
    | some ii =>
      obtain ⟨-, before, -⟩ := stickyInSpace_some found
      simp only [getFrameMetricsApprox_uniform (show lastInitialIndex props < props.itemCount by omega),
        getFrameMetricsApprox_uniform (show ii < props.itemCount by omega),
        getFrameMetricsApprox_uniform inside]
      -- The sticky header is a run of one cell.
      have one : runOfCells ii (min ((props.itemCount : ℤ) - 1) ii + 1) = [.cell ii] := by
        have single := runOfCells_succ ii 0
        rw [min_eq_right (by omega)]
        simpa [runOfCells_empty] using single
      simp only [push, pushCells_cells, one]
      simp
  · refine ⟨rendered, ?_, ?_⟩
    · rw [pushLead, if_neg (by simpa [virtualized] using beyond)]
    · rw [leadElements, if_neg beyond, append_nil]

theorem pushTail_uniform (ends : state.last < props.itemCount) :
    ∃ tail, pushTail props (uniformFrames length) state rendered = some tail ∧
      tail.cells = rendered.cells ++ tailElements length props state := by
  by_cases before : state.last < (props.itemCount : ℤ) - 1
  · rw [pushTail, tailElements, if_pos before, if_pos (by simp [virtualized, before])]
    simp only [show (uniformFrames length).hasItemLayout = true from rfl, if_true,
      getFrameMetricsApprox_uniform ends,
      getFrameMetricsApprox_uniform (show ((props.itemCount : ℤ) - 1) < props.itemCount by omega)]
    exact ⟨_, rfl, rfl⟩
  · refine ⟨rendered, ?_, ?_⟩
    · rw [pushTail, if_neg (by simpa [virtualized] using before)]
    · rw [tailElements, if_neg before, append_nil]

theorem pushBody_uniform (ordered : state.first ≤ state.last)
    (ends : state.last < props.itemCount) :
    ∃ body, pushBody props (uniformFrames length) state rendered = some body ∧
      body.cells = rendered.cells ++ bodyElements length props state := by
  obtain ⟨lead, pushed, isLead⟩ := @pushLead_uniform props state length
    (pushCells props 0 (lastInitialIndex props) rendered) virtualized (by omega)
  obtain ⟨tail, pushedToo, isTail⟩ := @pushTail_uniform props state length
    (pushCells props (max (lastInitialIndex props + 1) state.first) state.last lead) virtualized ends
  refine ⟨tail, ?_, ?_⟩
  · simp only [pushBody, pushed, Option.bind_eq_bind, Option.bind_some, pushedToo]
  · simp only [isTail, pushCells_cells, isLead, bodyElements, append_assoc]

end

def headerElements (props : RenderedListProps) : List ListElement :=
  if props.hasListHeader then [.listHeader] else []

def footerElements (props : RenderedListProps) : List ListElement :=
  if props.hasListFooter then [.listFooter] else []

theorem renderElements_uniform (virtualized : props.disableVirtualization = false)
    (begins : 0 ≤ state.first) (ordered : state.first ≤ state.last)
    (ends : state.last < props.itemCount) :
    ∃ rendered, renderElements props (uniformFrames length) state = some rendered ∧
      rendered.cells = headerElements props ++ bodyElements length props state ++
        footerElements props := by
  have someItem : props.itemCount > 0 := by omega
  obtain ⟨body, pushed, isBody⟩ :=
    @pushBody_uniform props state length (pushHeader props) virtualized ordered ends
  simp only [renderElements, if_pos someItem, pushed]
  split
  next footer => simp [push, isBody, footerElements, footer, pushHeader, headerElements]
  next footer => simp [isBody, footerElements, footer, pushHeader, headerElements]

/-! ### Where the cells lie -/

theorem lastInitialIndex_ge : -1 ≤ lastInitialIndex props := by
  rw [lastInitialIndex]
  split <;> omega

theorem lead_spans (sticks : ¬SticksAfterScroll props state)
    (beyond : lastInitialIndex props + 1 < state.first) :
    Spans length (lastInitialIndex props + 1) state.first (leadElements length props state) := by
  have initial := @lastInitialIndex_ge props
  rw [leadElements, if_pos beyond]
  cases found : stickyInSpace props state.first with
  | none => exact spans_spacer _ (by push_cast; ring)
  | some ii =>
    obtain ⟨after, before, sticky⟩ := stickyInSpace_some found
    -- the list begins at its first item, so the space before the header ends the initial block
    have unscrolled : ¬props.initialScrollIndex ≠ 0 := fun scrolled =>
      sticks ⟨scrolled, ii, by omega, before, sticky⟩
    have lead : Spans length (lastInitialIndex props + 1) ii [.spacer .stickyLead
        (length * ii - length * lastInitialIndex props -
          (if props.initialScrollIndex ≠ 0 then 0 else length))] :=
      spans_spacer _ (by rw [if_neg unscrolled]; push_cast; ring)
    have trail : Spans length (ii + 1) state.first [.spacer .stickyTrail
        (length * state.first - (length * ii + length))] :=
      spans_spacer _ (by push_cast; ring)
    exact lead.append ((spans_cell ii).append trail (by omega) (by omega)) (by omega) (by omega)

theorem lead_extent (sticks : SticksAfterScroll props state) :
    extent length (leadElements length props state) = length * state.first + length := by
  obtain ⟨scrolled, ii, begins, before, sticky⟩ := sticks
  have initial : lastInitialIndex props = -1 := if_pos scrolled
  rw [leadElements, if_pos (by omega)]
  cases found : stickyInSpace props state.first with
  | none => exact absurd sticky (stickyInSpace_none found (by omega) before)
  | some =>
    simp only [initial, if_pos scrolled, extent_cons, extent_nil, ListElement.extent]
    ring

theorem tail_spans (ends : state.last < props.itemCount) :
    Spans length (state.last + 1) props.itemCount (tailElements length props state) := by
  rw [tailElements]
  split
  · exact spans_spacer _ (by push_cast; ring)
  · rw [show state.last + 1 = props.itemCount by omega]
    exact spans_nil _

theorem leadElements_near (near : state.first ≤ lastInitialIndex props + 1) :
    leadElements length props state = [] :=
  if_neg near.not_gt

theorem window_spans (begins : 0 ≤ state.first) (ordered : state.first ≤ state.last)
    (ends : state.last < props.itemCount) (sticks : ¬SticksAfterScroll props state)
    (endsAfter : ¬EndsAmongInitial props state) :
    Spans length 0 (state.last + 1)
      (runOfCells 0 (min ((props.itemCount : ℤ) - 1) (lastInitialIndex props) + 1) ++
        leadElements length props state ++
        runOfCells (max (lastInitialIndex props + 1) state.first)
          (min ((props.itemCount : ℤ) - 1) state.last + 1)) := by
  have initial := @lastInitialIndex_ge props
  rw [EndsAmongInitial, not_lt] at endsAfter
  rw [show min ((props.itemCount : ℤ) - 1) state.last = state.last by omega]
  rcases lt_or_ge (lastInitialIndex props + 1) state.first with beyond | near
  · rw [show min ((props.itemCount : ℤ) - 1) (lastInitialIndex props) = lastInitialIndex props by
      omega, max_eq_right beyond.le]
    have block := @spans_runOfCells length 0 (lastInitialIndex props + 1) (by omega)
    have front := block.append (lead_spans sticks beyond) (by omega) beyond.le
    exact front.append (spans_runOfCells (by omega)) begins (by omega)
  · rw [leadElements_near near, append_nil, max_eq_left near]
    rcases le_or_gt (lastInitialIndex props) state.last with within | short
    · rw [show min ((props.itemCount : ℤ) - 1) (lastInitialIndex props) = lastInitialIndex props by
        omega]
      exact (spans_runOfCells (by omega)).append (spans_runOfCells (by omega)) (by omega) (by omega)
    · -- there are fewer items than initial cells, and the window ends with the list
      rw [show min ((props.itemCount : ℤ) - 1) (lastInitialIndex props) = state.last by omega,
        runOfCells_empty (show state.last + 1 ≤ lastInitialIndex props + 1 by omega), append_nil]
      exact spans_runOfCells (by omega)

theorem headerElements_spans (start : ℤ) : Spans length start start (headerElements props) := by
  refine spans_around (fun element member => ?_) start
  rw [headerElements] at member
  split at member
  · rw [mem_singleton.mp member]
    exact ⟨rfl, rfl⟩
  · cases member

theorem footerElements_spans (start : ℤ) : Spans length start start (footerElements props) := by
  refine spans_around (fun element member => ?_) start
  rw [footerElements] at member
  split at member
  · rw [mem_singleton.mp member]
    exact ⟨rfl, rfl⟩
  · cases member

theorem body_spans (begins : 0 ≤ state.first) (ordered : state.first ≤ state.last)
    (ends : state.last < props.itemCount) (sticks : ¬SticksAfterScroll props state)
    (endsAfter : ¬EndsAmongInitial props state) :
    Spans length 0 props.itemCount
      (headerElements props ++ bodyElements length props state ++ footerElements props) := by
  have body : Spans length 0 props.itemCount (bodyElements length props state) :=
    (window_spans begins ordered ends sticks endsAfter).append (tail_spans ends) (by omega)
      (by omega)
  exact ((headerElements_spans 0).append body (by omega) (by omega)).append
    (footerElements_spans _) (by omega) (by omega)

theorem extent_rendered :
    extent length (headerElements props ++ bodyElements length props state ++ footerElements props) =
      extent length (bodyElements length props state) := by
  rw [extent_append, extent_append, (headerElements_spans 0).total, (footerElements_spans 0).total]
  ring

theorem extent_sticking (ordered : state.first ≤ state.last) (ends : state.last < props.itemCount)
    (sticks : SticksAfterScroll props state) :
    extent length (bodyElements length props state) = length * props.itemCount + length := by
  have scrolled : lastInitialIndex props = -1 := if_pos sticks.1
  obtain ⟨-, ii, begins, before, -⟩ := id sticks
  have window : Spans length state.first (state.last + 1)
      (runOfCells (max (lastInitialIndex props + 1) state.first)
        (min ((props.itemCount : ℤ) - 1) state.last + 1)) := by
    rw [scrolled, max_eq_right (by omega),
      show min ((props.itemCount : ℤ) - 1) state.last = state.last by omega]
    exact spans_runOfCells (by omega)
  have initial : runOfCells 0 (min ((props.itemCount : ℤ) - 1) (lastInitialIndex props) + 1) = [] :=
    runOfCells_empty (by omega)
  rw [bodyElements, extent_append, extent_append, extent_append, initial, extent_nil,
    lead_extent sticks, window.total, (tail_spans ends).total]
  push_cast
  ring

theorem extent_ending (begins : 0 ≤ state.first) (ordered : state.first ≤ state.last)
    (ends : state.last < props.itemCount) (endsAmong : EndsAmongInitial props state) :
    extent length (bodyElements length props state) = length * props.itemCount +
      length * (min ((props.itemCount : ℤ) - 1) (lastInitialIndex props) - state.last : ℤ) := by
  rw [EndsAmongInitial] at endsAmong
  have initial := @spans_runOfCells length 0
    (min ((props.itemCount : ℤ) - 1) (lastInitialIndex props) + 1) (by omega)
  have window : runOfCells (max (lastInitialIndex props + 1) state.first)
      (min ((props.itemCount : ℤ) - 1) state.last + 1) = [] :=
    runOfCells_empty (by omega)
  rw [bodyElements, leadElements_near (by omega), window, append_nil, append_nil,
    extent_append, initial.total, (tail_spans ends).total]
  push_cast
  ring

theorem mem_cellIndices_body (ends : state.last < props.itemCount) (begins : 0 ≤ ii)
    (inside : ii ≤ lastInitialIndex props ∧ ii < props.itemCount ∨
      state.first ≤ ii ∧ ii ≤ state.last) :
    ii ∈ cellIndices
      (headerElements props ++ bodyElements length props state ++ footerElements props) := by
  simp only [bodyElements, cellIndices_append, mem_append, cellIndices_runOfCells,
    Int.mem_range_iff]
  omega

variable (props state) in
/-- Each cell is laid at its offset exactly if no header sticks after a scroll and the window does not
end among the initial cells. -/
theorem renderElements_laysOut_iff (length : ℚ) (positive : 0 < length)
    (virtualized : props.disableVirtualization = false)
    (begins : 0 ≤ state.first) (ordered : state.first ≤ state.last)
    (ends : state.last < props.itemCount) :
    (∃ rendered, renderElements props (uniformFrames length) state = some rendered ∧
      LaysOut length props state rendered.cells) ↔
    ¬SticksAfterScroll props state ∧ ¬EndsAmongInitial props state := by
  obtain ⟨rendered, computed, cells⟩ := @renderElements_uniform props state length virtualized begins
    ordered ends
  simp only [computed, Option.some_inj, exists_eq_left', cells]
  constructor
  · intro lays
    have total := lays.total
    rw [extent_rendered] at total
    -- Either slip makes the whole too long.
    constructor
    · intro sticks
      rw [extent_sticking ordered ends sticks] at total
      linarith
    · intro endsAmong
      rw [extent_ending begins ordered ends endsAmong] at total
      rw [EndsAmongInitial] at endsAmong
      have beyond : (0 : ℚ) < (min ((props.itemCount : ℤ) - 1) (lastInitialIndex props) -
          state.last : ℤ) := by
        exact_mod_cast (by omega : 0 < min ((props.itemCount : ℤ) - 1) (lastInitialIndex props) -
          state.last)
      have space := mul_pos positive beyond
      linarith
  · rintro ⟨sticks, endsAfter⟩
    have spans := @body_spans props state length begins ordered ends sticks endsAfter
    exact
      { window := fun ii first last => mem_cellIndices_body ends (by omega) (.inr ⟨first, last⟩)
        initial := fun ii first initial inside =>
          mem_cellIndices_body ends first (.inl ⟨initial, inside⟩)
        increasing := spans.increasing
        placed := spans.placed
        total := by simpa using spans.total }

def stickyList : RenderedListProps where
  itemCount := 3
  initialNumToRender := 1
  initialNumToRender_pos := Nat.one_pos
  initialScrollIndex := 2
  stickyHeaderIndices := [0]

theorem renderElements_laysOut_iff_stickyList :
    (∃ rendered, renderElements stickyList (uniformFrames 10) ⟨0, 2⟩ = some rendered ∧
      LaysOut 10 stickyList ⟨0, 2⟩ rendered.cells) ↔
    ¬SticksAfterScroll stickyList ⟨0, 2⟩ ∧ ¬EndsAmongInitial stickyList ⟨0, 2⟩ :=
  renderElements_laysOut_iff stickyList ⟨0, 2⟩ 10 (by decide +kernel) rfl (by decide) (by decide)
    (by decide)

theorem stickyList_displaced :
    ¬∃ rendered, renderElements stickyList (uniformFrames 10) ⟨2, 2⟩ = some rendered ∧
      LaysOut 10 stickyList ⟨2, 2⟩ rendered.cells := by
  rintro ⟨rendered, computed, lays⟩
  have cells : renderElements stickyList (uniformFrames 10) ⟨2, 2⟩ =
      some ⟨[.spacer .stickyLead 10, .cell 0, .spacer .stickyTrail 10, .cell 2], [1]⟩ := by
    decide +kernel
  rw [cells, Option.some_inj] at computed
  subst computed
  have placed := lays.placed [.spacer .stickyLead 10] _ 0 rfl
  exact absurd placed (by decide +kernel)

end VirtualizedList

end ReactNative

