import ReactNative.Foundation.Runs
import ReactNative.Lists.VirtualizeUtils

/-! A list renders the cells from `first` to `last` and marks the selected row. -/
namespace ReactNative

structure VirtualizedListProps where
  /-- `getItemCount(data)` -/
  itemCount : ℕ
  hasData : Bool := true
  initialScrollIndex : ℕ := 0
  initialNumToRender : ℕ := 10
  initialNumToRender_pos : 0 < initialNumToRender := by decide
  maxToRenderPerBatch : ℕ := 10
  windowSize : ℚ := 21
  onEndReachedThreshold : ℚ := 2
  disableVirtualization : Bool := false
  /-- Whether the key events are handled by the owner of the list. -/
  onScrollKeyDown : Bool := false
  isNestedWithSameOrientation : Bool := false

structure VirtualizedListState extends RenderLimits where
  selectedRowIndex : Option ℤ

inductive ListKey where
  | downArrow
  | upArrow
  | enter
  deriving DecidableEq

/-- What a window update finds when it is processed. -/
structure CellsEnv where
  scrollMetrics : ListScrollMetrics
  getFrameMetricsApprox : ℤ → FrameMetrics
  /-- Whether a child list in the cell of the index has more elements to render. -/
  someChildHasMore : ℤ → Bool := fun _ => false

inductive ListUpdate where
  | selectedRowIndex (row : Option ℤ)
  | cellsToRender (env : CellsEnv)

structure MountedList where
  props : VirtualizedListProps
  state : VirtualizedListState
  pending : List ListUpdate := []

/-- A list and what its parent keeps for it. -/
structure NestableList where
  mounted : Option MountedList := none
  nestedChildState : Option RenderLimits := none

inductive ListAction where
  | mount (props : VirtualizedListProps)
  | keyDown (key : ListKey)
  | updateCellsToRender (env : CellsEnv)
  | render (newProps : VirtualizedListProps)
  | unmount

namespace VirtualizedList

variable (props : VirtualizedListProps)

def initialState : VirtualizedListState where
  first := props.initialScrollIndex
  last := min (props.itemCount : ℤ) (props.initialScrollIndex + props.initialNumToRender) - 1
  selectedRowIndex := some 0

/-- The stored state takes the place of the initial one; it has no selected row. -/
def constructorState (storedState : Option RenderLimits) : VirtualizedListState :=
  match storedState with
  | some stored => ⟨stored, none⟩
  | none => initialState props

def getDerivedStateFromProps (newProps : VirtualizedListProps) (prevState : VirtualizedListState) :
    VirtualizedListState where
  first := max 0 (min prevState.first (newProps.itemCount - 1 - newProps.maxToRenderPerBatch))
  last := max 0 (min prevState.last (newProps.itemCount - 1))
  selectedRowIndex := prevState.selectedRowIndex.map fun row => max 0 (min row newProps.itemCount)

def selectRowAboveIndex (rowIndex : ℤ) : ℤ :=
  if rowIndex > 0 then rowIndex - 1 else rowIndex

def selectRowBelowIndex (rowIndex : ℤ) : ℤ :=
  if rowIndex < props.itemCount - 1 then rowIndex + 1 else rowIndex

variable (list : MountedList)

def handleKeyDown (key : ListKey) : MountedList :=
  if list.props.onScrollKeyDown then list
  else
    let prevIndex := list.state.selectedRowIndex
    match key with
    | .downArrow =>
      { list with
        pending := list.pending ++
          [.selectedRowIndex (prevIndex.map (selectRowBelowIndex list.props))] }
    | .upArrow =>
      { list with
        pending := list.pending ++ [.selectedRowIndex (prevIndex.map selectRowAboveIndex)] }
    | .enter => list

variable (env : CellsEnv)

def updateCellsToRender : MountedList :=
  if list.props.hasData then { list with pending := list.pending ++ [.cellsToRender env] }
  else list

/-- The window that an update asks for, if any. Throws with the computation of the window. -/
def nextWindow (state : RenderLimits) : Option (Option RenderLimits) :=
  let metrics := env.scrollMetrics
  if props.disableVirtualization then
    let distanceFromEnd := metrics.contentLength - metrics.visibleLength - metrics.offset
    let renderAhead :=
      if distanceFromEnd < props.onEndReachedThreshold * metrics.visibleLength then
        props.maxToRenderPerBatch
      else 0
    some (some ⟨0, min (state.last + renderAhead) (props.itemCount - 1)⟩)
  else if metrics.visibleLength > 0 ∧ metrics.contentLength > 0 ∧
      (props.initialScrollIndex = 0 ∨ metrics.offset ≠ 0) then
    (VirtualizeUtils.computeWindowedRenderLimits props.itemCount props.maxToRenderPerBatch
      props.windowSize state env.getFrameMetricsApprox metrics).map some
  else some none

/-- The window ends at the first cell with a child list that has more to render. -/
def stopAtChild (window : RenderLimits) : RenderLimits :=
  let indices := (List.range (window.last - window.first + 1).toNat).map fun ii : ℕ => window.first + ii
  { window with last := (indices.find? env.someChildHasMore).getD window.last }

def processCellsToRender (state : VirtualizedListState) : Option VirtualizedListState :=
  (nextWindow props env state.toRenderLimits).map fun newState =>
    match (newState.map (stopAtChild env)).filter (· ≠ state.toRenderLimits) with
    | some window => { state with toRenderLimits := window }
    | none => state

def processUpdate (state : VirtualizedListState) : ListUpdate → Option VirtualizedListState
  | .selectedRowIndex row => some { state with selectedRowIndex := row }
  | .cellsToRender env => processCellsToRender props env state

def processUpdates (props : VirtualizedListProps) :
    VirtualizedListState → List ListUpdate → Option VirtualizedListState
  | state, [] => some state
  | state, update :: rest =>
    (processUpdate props state update).bind fun next => processUpdates props next rest

variable (nestedChildState : Option RenderLimits)

def mount : Option NestableList :=
  if 0 < props.windowSize then
    let storedState := if props.isNestedWithSameOrientation then nestedChildState else none
    some
      { mounted := some
          { props := props
            state := getDerivedStateFromProps props (constructorState props storedState) }
        -- a nested list registers when it has mounted, which drops what was kept for it
        nestedChildState := if props.isNestedWithSameOrientation then none else nestedChildState }
  else none

def render (newProps : VirtualizedListProps) : Option MountedList :=
  (processUpdates list.props list.state list.pending).map fun state =>
    { props := newProps, state := getDerivedStateFromProps newProps state }

def componentWillUnmount : NestableList where
  mounted := none
  nestedChildState :=
    if list.props.isNestedWithSameOrientation then some list.state.toRenderLimits
    else nestedChildState

def step (list : NestableList) : ListAction → Option NestableList
  | .mount props => if list.mounted.isNone then mount props list.nestedChildState else none
  | .keyDown key =>
    list.mounted.map fun mounted => { list with mounted := some (handleKeyDown mounted key) }
  | .updateCellsToRender env =>
    list.mounted.map fun mounted => { list with mounted := some (updateCellsToRender mounted env) }
  | .render newProps =>
    list.mounted.bind fun mounted =>
      (render mounted newProps).map fun rendered => { list with mounted := some rendered }
  | .unmount =>
    list.mounted.map fun mounted => componentWillUnmount mounted list.nestedChildState

end VirtualizedList

end ReactNative

