import ReactNative.Lists.VirtualizedList

/-! The window always does, whatever the updates and the shrinking of the data. -/
namespace ReactNative

open Option

/-- What is rendered is in the data, when there is any. -/
def MountedList.InData (list : MountedList) : Prop :=
  0 < list.props.itemCount → (0 ≤ list.state.first ∧ list.state.first ≤ list.state.last ∧
      list.state.last ≤ list.props.itemCount - 1) ∧
    ∃ row, list.state.selectedRowIndex = some row ∧ 0 ≤ row ∧ row ≤ list.props.itemCount - 1

namespace VirtualizedList

def InData (list : NestableList) : Prop := ∀ mounted ∈ list.mounted, mounted.InData

/-- Every state on the way through the actions is in the data. -/
def AlwaysInData (actions : List ListAction) : Prop :=
  ∀ taken rest list, actions = taken ++ rest → Runs.run step {} taken = some list → InData list

def selectedAfter (row : Option ℤ) : List ListUpdate → Option ℤ
  | [] => row
  | .selectedRowIndex selected :: rest => selectedAfter selected rest
  | .cellsToRender _ :: rest => selectedAfter row rest

/-- The data is empty, or it reaches the selected row and no state is restored. -/
def SelectionFits (list : NestableList) : ListAction → Prop
  | .mount props =>
    props.itemCount = 0 ∨ ¬(props.isNestedWithSameOrientation ∧ list.nestedChildState.isSome)
  | .render newProps => ∀ mounted ∈ list.mounted, newProps.itemCount = 0 ∨
    ∃ row, selectedAfter mounted.state.selectedRowIndex mounted.pending = some row ∧
      row < newProps.itemCount
  | _ => True

structure WindowFits (itemCount : ℕ) (window : RenderLimits) : Prop where
  nonneg : 0 ≤ window.first
  ordered : window.first ≤ window.last
  bounded : window.last ≤ max 0 ((itemCount : ℤ) - 1)

def Loose (window : RenderLimits) : Prop := window.first ≤ window.last ∨ window.first ≤ 0

def NonnegRow (row : Option ℤ) : Prop := ∀ index ∈ row, 0 ≤ index

def NonnegUpdate : ListUpdate → Prop
  | .selectedRowIndex row => NonnegRow row
  | .cellsToRender _ => True

structure MountedInv (list : MountedList) : Prop where
  window : WindowFits list.props.itemCount list.state.toRenderLimits
  row : NonnegRow list.state.selectedRowIndex
  pending : ∀ update ∈ list.pending, NonnegUpdate update

structure ListInv (list : NestableList) : Prop where
  mounted : ∀ mounted ∈ list.mounted, MountedInv mounted
  stored : ∀ stored ∈ list.nestedChildState, stored.first ≤ stored.last

variable {props newProps : VirtualizedListProps} {state next : VirtualizedListState}
  {updates : List ListUpdate} {list : MountedList}

/-! ### The derived state -/

theorem windowFits_getDerivedStateFromProps
    (window : Loose state.toRenderLimits ∨ newProps.itemCount ≤ state.last + 1) :
    WindowFits newProps.itemCount (getDerivedStateFromProps newProps state).toRenderLimits := by
  simp only [Loose] at window
  constructor
  · simp only [getDerivedStateFromProps]
    omega
  · simp only [getDerivedStateFromProps]
    omega
  · simp only [getDerivedStateFromProps]
    omega

theorem nonnegRow_getDerivedStateFromProps :
    NonnegRow (getDerivedStateFromProps newProps state).selectedRowIndex := by
  intro index selected
  obtain ⟨-, -, rfl⟩ := map_eq_some_iff.mp selected
  exact le_max_left _ _

theorem derivedRow_iff (some_item : 0 < newProps.itemCount)
    (nonneg : NonnegRow state.selectedRowIndex) :
    (∃ row, (getDerivedStateFromProps newProps state).selectedRowIndex = some row ∧ 0 ≤ row ∧
        row ≤ newProps.itemCount - 1) ↔
      ∃ row, state.selectedRowIndex = some row ∧ row < newProps.itemCount := by
  simp only [getDerivedStateFromProps, map_eq_some_iff]
  constructor
  · rintro ⟨_, ⟨row, selected, rfl⟩, -, bound⟩
    exact ⟨row, selected, by omega⟩
  · rintro ⟨row, selected, bound⟩
    have := nonneg row selected
    exact ⟨_, ⟨row, selected, rfl⟩, by omega, by omega⟩

theorem inData_getDerivedStateFromProps {pending : List ListUpdate}
    (window : Loose state.toRenderLimits ∨ newProps.itemCount ≤ state.last + 1)
    (nonneg : NonnegRow state.selectedRowIndex) :
    MountedList.InData ⟨newProps, getDerivedStateFromProps newProps state, pending⟩ ↔
      newProps.itemCount = 0 ∨
        ∃ row, state.selectedRowIndex = some row ∧ row < newProps.itemCount := by
  have fits := windowFits_getDerivedStateFromProps window
  by_cases empty : newProps.itemCount = 0
  · simp [MountedList.InData, empty]
  · have some_item : 0 < newProps.itemCount := Nat.pos_of_ne_zero empty
    have bound := fits.bounded
    rw [or_iff_right empty, ← derivedRow_iff some_item nonneg]
    constructor
    · intro inData
      exact (inData some_item).2
    · intro selected _
      exact ⟨⟨fits.nonneg, fits.ordered, by dsimp only; omega⟩, selected⟩

/-! ### The updates -/

theorem stopAtChild_last {env : CellsEnv} {window : RenderLimits} :
    (stopAtChild env window).last = window.last ∨ window.first ≤ (stopAtChild env window).last := by
  simp only [stopAtChild]
  cases found : ((List.range (window.last - window.first + 1).toNat).map
      fun ii : ℕ => window.first + ii).find? env.someChildHasMore with
  | none => exact .inl rfl
  | some =>
    right
    obtain ⟨position, -, rfl⟩ := List.mem_map.mp (List.mem_of_find?_eq_some found)
    exact Int.le_add_of_nonneg_right (Int.natCast_nonneg position)

variable {env : CellsEnv} {window : RenderLimits}

theorem loose_stopAtChild (loose : Loose window) : Loose (stopAtChild env window) := by
  rcases @stopAtChild_last env window with same | inside
  · rw [Loose, same]
    exact loose
  · exact .inl inside

theorem loose_nextWindow {asked : RenderLimits} (loose : Loose window)
    (answered : nextWindow props env window = some (some asked)) : Loose asked := by
  simp only [nextWindow] at answered
  split at answered
  next =>
    cases answered
    exact .inr (le_refl (0 : ℤ))
  next =>
    split at answered
    next =>
      obtain ⟨_, computed, ⟨⟩⟩ := map_eq_some_iff.mp answered
      by_cases empty : props.itemCount = 0
      · rw [VirtualizeUtils.computeWindowedRenderLimits, if_pos empty] at computed
        cases computed
        exact loose
      · exact .inl (VirtualizeUtils.computeWindowedRenderLimits_inRange empty computed).2.1
    next => cases answered

theorem processCellsToRender_keeps (loose : Loose state.toRenderLimits)
    (processed : processCellsToRender props env state = some next) :
    Loose next.toRenderLimits ∧ next.selectedRowIndex = state.selectedRowIndex := by
  obtain ⟨_, answered, rfl⟩ := map_eq_some_iff.mp processed
  split
  next window changed =>
    obtain ⟨_, rfl, rfl⟩ := map_eq_some_iff.mp (filter_eq_some_iff.mp changed).1
    exact ⟨loose_stopAtChild (loose_nextWindow loose answered), rfl⟩
  next => exact ⟨loose, rfl⟩

theorem processUpdates_keeps (loose : Loose state.toRenderLimits)
    (processed : processUpdates props state updates = some next) :
    Loose next.toRenderLimits ∧
      next.selectedRowIndex = selectedAfter state.selectedRowIndex updates := by
  induction updates generalizing state with
  | nil =>
    cases processed
    exact ⟨loose, rfl⟩
  | cons update _ ih =>
    obtain ⟨_, first, later⟩ := bind_eq_some_iff.mp processed
    cases update with
    | selectedRowIndex row =>
      cases first
      have looseRow : Loose { state with selectedRowIndex := row }.toRenderLimits := loose
      exact ih looseRow later
    | cellsToRender =>
      obtain ⟨looseMiddle, row⟩ := processCellsToRender_keeps loose first
      rw [selectedAfter, ← row]
      exact ih looseMiddle later

theorem nonneg_selectedAfter {row : Option ℤ} (nonneg : NonnegRow row)
    (pending : ∀ update ∈ updates, NonnegUpdate update) : NonnegRow (selectedAfter row updates) := by
  induction updates generalizing row with
  | nil => exact nonneg
  | cons update _ ih =>
    obtain ⟨here, later⟩ := List.forall_mem_cons.mp pending
    cases update with
    | selectedRowIndex => exact ih here later
    | cellsToRender => exact ih nonneg later

/-! ### The actions -/

theorem nonneg_selectRowAboveIndex {rowIndex : ℤ} (nonneg : 0 ≤ rowIndex) :
    0 ≤ selectRowAboveIndex rowIndex := by
  rw [selectRowAboveIndex]
  split <;> omega

theorem nonneg_selectRowBelowIndex {rowIndex : ℤ} (nonneg : 0 ≤ rowIndex) :
    0 ≤ selectRowBelowIndex props rowIndex := by
  rw [selectRowBelowIndex]
  split <;> omega

theorem nonnegRow_map {row : Option ℤ} {select : ℤ → ℤ} (nonneg : NonnegRow row)
    (keeps : ∀ {index}, 0 ≤ index → 0 ≤ select index) : NonnegRow (row.map select) := by
  intro index selected
  obtain ⟨previous, found, rfl⟩ := map_eq_some_iff.mp selected
  exact keeps (nonneg previous found)

theorem mountedInv_pending {update : ListUpdate} (inv : MountedInv list)
    (nonneg : NonnegUpdate update) :
    MountedInv { list with pending := list.pending ++ [update] } := by
  refine ⟨inv.window, inv.row, ?_⟩
  intro other member
  rcases List.mem_append.mp member with before | added
  · exact inv.pending other before
  · cases List.mem_singleton.mp added
    exact nonneg

theorem mountedInv_handleKeyDown (inv : MountedInv list) (key : ListKey) :
    MountedInv (handleKeyDown list key) := by
  rw [handleKeyDown]
  split
  next => exact inv
  next =>
    cases key with
    | downArrow => exact mountedInv_pending inv (nonnegRow_map inv.row nonneg_selectRowBelowIndex)
    | upArrow => exact mountedInv_pending inv (nonnegRow_map inv.row nonneg_selectRowAboveIndex)
    | enter => exact inv

theorem mountedInv_updateCellsToRender (inv : MountedInv list) (env : CellsEnv) :
    MountedInv (updateCellsToRender list env) := by
  rw [updateCellsToRender]
  split
  next => exact mountedInv_pending inv trivial
  next => exact inv

theorem rendered_handleKeyDown (key : ListKey) :
    (handleKeyDown list key).props = list.props ∧ (handleKeyDown list key).state = list.state := by
  rw [handleKeyDown]
  split
  next => simp
  next => cases key <;> simp

theorem rendered_updateCellsToRender (env : CellsEnv) :
    (updateCellsToRender list env).props = list.props ∧
      (updateCellsToRender list env).state = list.state := by
  rw [updateCellsToRender]
  split <;> simp

theorem inData_congr {other : MountedList} (props : other.props = list.props)
    (state : other.state = list.state) : other.InData ↔ list.InData := by
  rw [MountedList.InData, MountedList.InData, props, state]

theorem mountedInv_getDerivedStateFromProps
    (window : Loose state.toRenderLimits ∨ newProps.itemCount ≤ state.last + 1) :
    MountedInv { props := newProps, state := getDerivedStateFromProps newProps state } where
  window := windowFits_getDerivedStateFromProps window
  row := nonnegRow_getDerivedStateFromProps
  pending := by simp

theorem loose_constructorState {storedState : Option RenderLimits}
    (stored : ∀ stored ∈ storedState, stored.first ≤ stored.last) :
    Loose (constructorState props storedState).toRenderLimits ∨
      props.itemCount ≤ (constructorState props storedState).last + 1 := by
  cases storedState with
  | some window => exact .inl (.inl (stored window rfl))
  | none =>
    have := props.initialNumToRender_pos
    simp only [constructorState, initialState, Loose]
    omega

variable (storedState : Option RenderLimits)

theorem nonneg_constructorState :
    NonnegRow (constructorState props storedState).selectedRowIndex := by
  cases storedState <;> simp [constructorState, initialState, NonnegRow]

theorem constructorState_row :
    (props.itemCount = 0 ∨ ∃ row, (constructorState props storedState).selectedRowIndex = some row ∧
        row < props.itemCount) ↔ props.itemCount = 0 ∨ storedState = none := by
  cases storedState with
  | some => simp [constructorState]
  | none =>
    simp only [constructorState, initialState, some.injEq, or_true, iff_true]
    by_cases empty : props.itemCount = 0
    · exact .inl empty
    · exact .inr ⟨0, rfl, by omega⟩

theorem inData_mounted {storedState : Option RenderLimits}
    (stored : ∀ stored ∈ storedState, stored.first ≤ stored.last) :
    MountedList.InData
        { props := props
          state := getDerivedStateFromProps props (constructorState props storedState) } ↔
      props.itemCount = 0 ∨ storedState = none := by
  rw [inData_getDerivedStateFromProps (loose_constructorState stored) (nonneg_constructorState _)]
  exact constructorState_row storedState

theorem stored_le {nested : Bool} {stored : Option RenderLimits}
    (ordered : ∀ window ∈ stored, window.first ≤ window.last) :
    ∀ window ∈ (if nested then stored else none), window.first ≤ window.last := by
  cases nested with
  | true => exact ordered
  | false => simp

theorem mount_eq {stored : Option RenderLimits} {list : NestableList}
    (mounts : mount props stored = some list) :
    list.mounted = some
        { props := props
          state := getDerivedStateFromProps props
            (constructorState props (if props.isNestedWithSameOrientation then stored else none)) } ∧
      list.nestedChildState = if props.isNestedWithSameOrientation then none else stored := by
  obtain ⟨-, ⟨⟩⟩ := ite_none_right_eq_some.mp mounts
  exact ⟨rfl, rfl⟩

theorem listInv_step {list next : NestableList} {action : ListAction} (inv : ListInv list)
    (stepped : step list action = some next) : ListInv next := by
  -- One case for each action; what is stored changes only when a list mounts or unmounts.
  cases action with
  | mount =>
    obtain ⟨-, mounts⟩ := ite_none_right_eq_some.mp stepped
    obtain ⟨mounted, stored⟩ := mount_eq mounts
    constructor
    · rw [mounted]
      rintro _ ⟨⟩
      exact mountedInv_getDerivedStateFromProps (loose_constructorState (stored_le inv.stored))
    · rw [stored]
      split
      next => simp
      next => exact inv.stored
  | keyDown key =>
    obtain ⟨mounted, isMounted, rfl⟩ := map_eq_some_iff.mp stepped
    refine ⟨?_, inv.stored⟩
    rintro _ ⟨⟩
    exact mountedInv_handleKeyDown (inv.mounted mounted isMounted) key
  | updateCellsToRender env =>
    obtain ⟨mounted, isMounted, rfl⟩ := map_eq_some_iff.mp stepped
    refine ⟨?_, inv.stored⟩
    rintro _ ⟨⟩
    exact mountedInv_updateCellsToRender (inv.mounted mounted isMounted) env
  | render =>
    obtain ⟨mounted, isMounted, rendered⟩ := bind_eq_some_iff.mp stepped
    obtain ⟨_, renders, rfl⟩ := map_eq_some_iff.mp rendered
    obtain ⟨_, processed, rfl⟩ := map_eq_some_iff.mp renders
    have loose := (processUpdates_keeps (.inl (inv.mounted mounted isMounted).window.ordered)
      processed).1
    refine ⟨?_, inv.stored⟩
    rintro _ ⟨⟩
    exact mountedInv_getDerivedStateFromProps (.inl loose)
  | unmount =>
    obtain ⟨mounted, isMounted, rfl⟩ := map_eq_some_iff.mp stepped
    refine ⟨by simp [componentWillUnmount], ?_⟩
    rw [componentWillUnmount]
    split
    next =>
      rintro _ ⟨⟩
      exact (inv.mounted mounted isMounted).window.ordered
    next => exact inv.stored

theorem inData_step_iff {list next : NestableList} {action : ListAction} (inv : ListInv list)
    (inData : InData list) (stepped : step list action = some next) :
    InData next ↔ SelectionFits list action := by
  -- Only a mount and a render choose the selected row anew.
  cases action with
  | mount props =>
    obtain ⟨-, mounts⟩ := ite_none_right_eq_some.mp stepped
    obtain ⟨mounted, -⟩ := mount_eq mounts
    simp only [InData, mounted, mem_some_iff, forall_eq',
      inData_mounted (stored_le inv.stored), SelectionFits]
    cases props.isNestedWithSameOrientation <;> simp
  | keyDown key =>
    obtain ⟨mounted, isMounted, rfl⟩ := map_eq_some_iff.mp stepped
    refine iff_of_true ?_ trivial
    rintro _ ⟨⟩
    obtain ⟨props, state⟩ := @rendered_handleKeyDown mounted key
    exact (inData_congr props state).mpr (inData mounted isMounted)
  | updateCellsToRender env =>
    obtain ⟨mounted, isMounted, rfl⟩ := map_eq_some_iff.mp stepped
    refine iff_of_true ?_ trivial
    rintro _ ⟨⟩
    obtain ⟨props, state⟩ := @rendered_updateCellsToRender mounted env
    exact (inData_congr props state).mpr (inData mounted isMounted)
  | render =>
    obtain ⟨mounted, isMounted, rendered⟩ := bind_eq_some_iff.mp stepped
    obtain ⟨_, renders, rfl⟩ := map_eq_some_iff.mp rendered
    obtain ⟨state, processed, rfl⟩ := map_eq_some_iff.mp renders
    have mountedInv := inv.mounted mounted isMounted
    obtain ⟨loose, row⟩ := processUpdates_keeps (.inl mountedInv.window.ordered) processed
    -- A row that was taken from a key press is not negative.
    have nonneg : NonnegRow state.selectedRowIndex := by
      rw [row]
      exact nonneg_selectedAfter mountedInv.row mountedInv.pending
    simp only [InData, SelectionFits, isMounted, mem_some_iff, forall_eq', ← row]
    exact inData_getDerivedStateFromProps (.inl loose) nonneg
  | unmount =>
    obtain ⟨mounted, isMounted, rfl⟩ := map_eq_some_iff.mp stepped
    simp [InData, componentWillUnmount, SelectionFits]

/-- **Inside the data.** Every rendered state of a run is in the data exactly if the data reaches the
selected row, or is empty, at every render of the run and no state is restored for data. -/
theorem alwaysInData_iff (actions : List ListAction) : AlwaysInData actions ↔
      Runs.Along step (fun list action => (step list action).isSome → SelectionFits list action) {}
        actions := by
  have start : ListInv {} := ⟨by simp, by simp⟩
  have good : InData {} := by simp [InData]
  apply Runs.always_iff_along _ _ start good
  · intro _ _ _ inv _ stepped
    exact listInv_step inv stepped
  · intro _ _ _ inv inData stepped
    exact inData_step_iff inv inData stepped

def threeItems : VirtualizedListProps := { itemCount := 3 }

def removedSelection : List ListAction :=
  [.mount threeItems, .keyDown .downArrow, .render threeItems, .keyDown .downArrow,
    .render threeItems, .render { itemCount := 2 }]

theorem removedSelection_not_alwaysInData : ¬AlwaysInData removedSelection := by
  intro always
  obtain ⟨-, row, selected, -, bound⟩ :=
    always removedSelection [] _ (List.append_nil _).symm rfl _ rfl (by decide)
  cases selected
  exact absurd bound (by decide)

end VirtualizedList

end ReactNative

