import ReactNative.Lists.SectionListFlattening
import ReactNative.Lists.VirtualizedList

/-! The arrow keys move the selection of a section list over the borders of its sections without
looking whether there is a row beyond, and report it with the item that was selected before. -/
namespace ReactNative

open Runs List Option VirtualizedSectionList

structure SelectableListProps (Data Item : Type) extends SectionListProps Data Item where
  element : Data → ℤ → Option Item
  onSelectionChanged : Bool := true
  onSelectionEntered : Bool := true

inductive SelectionCall (Selection Item : Type) where
  | onSelectionChanged (previousSelection newSelection : Selection) (item : Option Item)
  | onSelectionEntered (item : Option Item)

structure SelectionCallbacks (Item : Type) where
  getItem : ℤ → Option Item
  onSelectionChanged : Bool := true
  onSelectionEntered : Bool := true

namespace VirtualizedList

variable {Item : Type}

/-- The calls of the key handler. A selected row that is no number differs from itself. -/
def keyDownCalls (callbacks : SelectionCallbacks Item) (list : MountedList) (key : ListKey) :
    List (SelectionCall (Option ℤ) Item) :=
  if list.props.onScrollKeyDown then []
  else
    let prevIndex := list.state.selectedRowIndex
    let changed (newIndex : Option ℤ) : List (SelectionCall (Option ℤ) Item) :=
      if (prevIndex = none ∨ prevIndex ≠ newIndex) ∧ callbacks.onSelectionChanged then
        [.onSelectionChanged prevIndex newIndex (newIndex.bind callbacks.getItem)]
      else []
    match key with
    | .downArrow => changed (prevIndex.map (selectRowBelowIndex list.props))
    | .upArrow => changed (prevIndex.map selectRowAboveIndex)
    | .enter =>
      if callbacks.onSelectionEntered then
        [.onSelectionEntered (prevIndex.bind callbacks.getItem)]
      else []

def pressKey (list : MountedList) (key : ListKey) : Option MountedList :=
  render (handleKeyDown list key) list.props

def freshList (props : VirtualizedListProps) : MountedList where
  props := props
  state := getDerivedStateFromProps props (initialState props)

end VirtualizedList

namespace VirtualizedSectionList

variable {Data Item : Type} (props : SelectableListProps Data Item)
  (sections : List (SectionBase Data Item))

def dataLength (sectionIndex : ℕ) : ℤ :=
  (sections[sectionIndex]?.map fun sect => (props.length sect.data : ℤ)).getD 0

variable (rowIndexPath : RowIndexPath)

def selectRowAboveIndexPath : RowIndexPath :=
  let sectionIndex := rowIndexPath.sectionIndex
  if sectionIndex ≥ sections.length then rowIndexPath
  else
    let row := rowIndexPath.rowIndex
    let rowAbove := row - 1
    if rowAbove < 0 then
      if sectionIndex > 0 then
        ⟨sectionIndex - 1, max 0 (dataLength props sections (sectionIndex - 1) - 1)⟩
      else ⟨sectionIndex, row⟩
    else ⟨sectionIndex, rowAbove⟩

def selectRowBelowIndexPath : RowIndexPath :=
  let sectionIndex := rowIndexPath.sectionIndex
  if sectionIndex ≥ sections.length then rowIndexPath
  else
    let count := dataLength props sections sectionIndex
    let row := rowIndexPath.rowIndex
    let rowBelow := row + 1
    if rowBelow > count - 1 then
      if sectionIndex < sections.length - 1 then ⟨sectionIndex + 1, 0⟩ else ⟨sectionIndex, row⟩
    else ⟨sectionIndex, rowBelow⟩

def itemAt : Option (Option Item) :=
  sections[rowIndexPath.sectionIndex]?.map fun sect => props.element sect.data rowIndexPath.rowIndex

def nextIndexPath : ListKey → RowIndexPath
  | .downArrow => selectRowBelowIndexPath props sections rowIndexPath
  | .upArrow => selectRowAboveIndexPath props sections rowIndexPath
  | .enter => rowIndexPath

/-- The selected row after the event, and the calls. -/
def handleKeyDown (prevIndexPath : RowIndexPath) (key : ListKey) :
    Option (RowIndexPath × List (SelectionCall RowIndexPath Item)) :=
  match key with
  | .enter =>
    if props.onSelectionEntered then
      (itemAt props sections prevIndexPath).map fun item =>
        (prevIndexPath, [.onSelectionEntered item])
    else some (prevIndexPath, [])
  | key =>
    let next := nextIndexPath props sections prevIndexPath key
    (ensureItemAtIndexPathIsVisible props.toSectionListProps sections next).bind fun _ =>
      if props.onSelectionChanged then
        (itemAt props sections prevIndexPath).map fun item =>
          (next, [.onSelectionChanged prevIndexPath next item])
      else some (next, [])

def pressKey (key : ListKey) : Option RowIndexPath :=
  (handleKeyDown props sections rowIndexPath key).map Prod.fst

def initialIndexPath : RowIndexPath := ⟨0, -1⟩

/-! ### Existing rows -/

def IsRow : Prop :=
  rowIndexPath.sectionIndex < sections.length ∧ 0 ≤ rowIndexPath.rowIndex ∧
    rowIndexPath.rowIndex < dataLength props sections rowIndexPath.sectionIndex

def HasRowAfter : Prop :=
  ∃ later, IsRow props sections later ∧ (rowIndexPath.sectionIndex < later.sectionIndex ∨
      rowIndexPath.sectionIndex = later.sectionIndex ∧ rowIndexPath.rowIndex < later.rowIndex)

/-- The key moves the selection over the border of its section, and the section beyond has no rows. -/
def MovesIntoEmpty : ListKey → Prop
  | .downArrow =>
    dataLength props sections rowIndexPath.sectionIndex ≤ rowIndexPath.rowIndex + 1 ∧
      rowIndexPath.sectionIndex + 1 < sections.length ∧
      dataLength props sections (rowIndexPath.sectionIndex + 1) = 0
  | .upArrow =>
    rowIndexPath.rowIndex ≤ 0 ∧ 0 < rowIndexPath.sectionIndex ∧
      dataLength props sections (rowIndexPath.sectionIndex - 1) = 0
  | .enter => False

variable {props sections} {rowIndexPath next : RowIndexPath} {key : ListKey}

theorem dataLength_nonneg (sectionIndex : ℕ) : 0 ≤ dataLength props sections sectionIndex := by
  rw [dataLength]
  cases sections[sectionIndex]? <;> simp

section

variable (inside : rowIndexPath.sectionIndex < sections.length)
include inside

theorem nextIndexPath_inside :
    (nextIndexPath props sections rowIndexPath key).sectionIndex < sections.length := by
  cases key with
  | downArrow =>
    simp only [nextIndexPath, selectRowBelowIndexPath]
    split_ifs <;> grind
  | upArrow =>
    simp only [nextIndexPath, selectRowAboveIndexPath]
    split_ifs <;> grind
  | enter => exact inside

theorem itemAt_isSome : ∃ item, itemAt props sections rowIndexPath = some item := by
  rw [itemAt, getElem?_eq_getElem inside]
  exact ⟨_, rfl⟩

theorem pressKey_eq :
    pressKey props sections rowIndexPath key = some (nextIndexPath props sections rowIndexPath key) := by
  obtain ⟨_, isItem⟩ := @itemAt_isSome _ _ props sections rowIndexPath inside
  have visible := @ensureItemAtIndexPathIsVisible_eq _ _ props.toSectionListProps
    (nextIndexPath props sections rowIndexPath key).rowIndex _ sections
    (@nextIndexPath_inside _ _ props sections rowIndexPath key inside).le
  cases key with
  | enter =>
    rw [pressKey, handleKeyDown, isItem]
    split <;> rfl
  | downArrow =>
    simp only [pressKey, handleKeyDown, isItem, visible, bind_some]
    split <;> rfl
  | upArrow =>
    simp only [pressKey, handleKeyDown, isItem, visible, bind_some]
    split <;> rfl

theorem isRow_next_iff
    (exists_row : 0 ≤ rowIndexPath.rowIndex → IsRow props sections rowIndexPath) :
    (0 ≤ (nextIndexPath props sections rowIndexPath key).rowIndex →
        IsRow props sections (nextIndexPath props sections rowIndexPath key)) ↔
      ¬MovesIntoEmpty props sections rowIndexPath key := by
  have outside : ¬rowIndexPath.sectionIndex ≥ sections.length := by omega
  cases key with
  | enter => exact iff_of_true exists_row not_false
  | downArrow =>
    have below := @dataLength_nonneg _ _ props sections (rowIndexPath.sectionIndex + 1)
    simp only [nextIndexPath, selectRowBelowIndexPath, if_neg outside, MovesIntoEmpty]
    split_ifs with border more
    · -- into the next section, at its first row
      simp only [IsRow]
      omega
    · exact iff_of_true exists_row (by omega)
    · refine iff_of_true (fun started => ⟨inside, started, ?_⟩) (by omega)
      dsimp only
      omega
  | upArrow =>
    have above := @dataLength_nonneg _ _ props sections (rowIndexPath.sectionIndex - 1)
    simp only [nextIndexPath, selectRowAboveIndexPath, if_neg outside, MovesIntoEmpty]
    split_ifs with border more
    · simp only [IsRow]
      omega
    · exact iff_of_true exists_row (by omega)
    · have isRow := exists_row (by omega)
      refine iff_of_true (fun started => ⟨inside, started, ?_⟩) (by omega)
      have within := isRow.2.2
      dsimp only
      omega

end

theorem down_up_returns (isRow : IsRow props sections rowIndexPath)
    (after : HasRowAfter props sections rowIndexPath) :
    run (pressKey props sections) rowIndexPath [.downArrow, .upArrow] = some rowIndexPath := by
  obtain ⟨inside, started, within⟩ := isRow
  obtain ⟨later, ⟨laterInside, -, laterWithin⟩, isLater⟩ := after
  rw [run, pressKey_eq inside, bind_some, run,
    pressKey_eq (nextIndexPath_inside inside), bind_some, run, some_inj]
  have outside : ¬rowIndexPath.sectionIndex ≥ sections.length := by omega
  simp only [nextIndexPath, selectRowBelowIndexPath, if_neg outside]
  by_cases border :
      rowIndexPath.rowIndex + 1 > dataLength props sections rowIndexPath.sectionIndex - 1
  · -- the row is the last one of its section, so the next section is not beyond the list
    have more : rowIndexPath.sectionIndex < sections.length - 1 := by
      rcases isLater with beyond | ⟨same, below⟩
      · omega
      · rw [← same] at laterWithin
        omega
    have isNext : ¬rowIndexPath.sectionIndex + 1 ≥ sections.length := by omega
    simp only [if_pos border, if_pos more, selectRowAboveIndexPath, if_neg isNext]
    rw [if_pos (by omega), if_pos (Nat.succ_pos _)]
    have last : max 0 (dataLength props sections rowIndexPath.sectionIndex - 1) =
        rowIndexPath.rowIndex := by omega
    simp only [Nat.add_sub_cancel, last]
  · simp only [if_neg border, selectRowAboveIndexPath, if_neg outside]
    rw [if_neg (by omega)]
    simp only [Int.add_sub_cancel]

variable (props sections) in
/-- The selection of a run stays on existing rows exactly if no key moves it into an empty section. A
row that is not the last one is returned to in any case. -/
theorem selectedRow_exists_iff (someRow : ∃ sect ∈ sections, 0 < props.length sect.data)
    (events : List ListKey) :
    (∀ taken rest path, events = taken ++ rest →
      run (pressKey props sections) initialIndexPath taken = some path →
        (0 ≤ path.rowIndex → IsRow props sections path) ∧
        (IsRow props sections path → HasRowAfter props sections path →
          run (pressKey props sections) path [.downArrow, .upArrow] = some path)) ↔
    Along (pressKey props sections)
      (fun path key => ¬MovesIntoEmpty props sections path key) initialIndexPath events := by
  obtain ⟨sect, member, -⟩ := someRow
  have start : initialIndexPath.sectionIndex < sections.length := length_pos_of_mem member
  have steps : ∀ (path : RowIndexPath) (key : ListKey), path.sectionIndex < sections.length →
      ∃ next, pressKey props sections path key = some next ∧
        next.sectionIndex < sections.length := fun path key inside =>
    ⟨_, pressKey_eq inside, nextIndexPath_inside inside⟩
  have always := @always_iff_along _ _ (pressKey props sections)
    (fun path key => ¬MovesIntoEmpty props sections path key)
    (fun path => path.sectionIndex < sections.length)
    (fun path => (0 ≤ path.rowIndex → IsRow props sections path) ∧
      (IsRow props sections path → HasRowAfter props sections path →
        run (pressKey props sections) path [.downArrow, .upArrow] = some path))
    initialIndexPath events ?_ ?_ start ?_
  · obtain ⟨final, ran, -⟩ := run_progress (fun path key inside _ => steps path key inside) start
      (along_of_forall (fun _ _ => trivial) initialIndexPath)
    rw [always]
    -- every key can be pressed
    refine @along_iff _ _ _ _ (fun path => path.sectionIndex < sections.length) _ _ _ _
      ?_ ?_ start ran
    · intro path key next inside stepped
      obtain ⟨_, same, isInside⟩ := steps path key inside
      exact some_inj.mp (same.symm.trans stepped) ▸ isInside
    · intro path key next _ stepped
      simp [stepped]
  · intro path key next inside _ stepped
    obtain ⟨_, same, isInside⟩ := steps path key inside
    exact some_inj.mp (same.symm.trans stepped) ▸ isInside
  · intro path key next inside good stepped
    rw [pressKey_eq inside, some_inj] at stepped
    rw [← stepped, ← isRow_next_iff inside good.1]
    exact and_iff_left fun isRow after => down_up_returns isRow after
  · refine ⟨fun started => absurd started (by decide), down_up_returns⟩

def arraySections : SelectableListProps (List ℕ) ℕ where
  getItem := at?
  getItemCount := List.length
  keyExtractor _ index := toString index
  length := List.length
  element := at?

theorem selectedRow_exists_iff_oneRow : (∀ taken rest path, [ListKey.downArrow] = taken ++ rest →
      run (pressKey arraySections [{ data := [7] }]) initialIndexPath taken = some path →
        (0 ≤ path.rowIndex → IsRow arraySections [{ data := [7] }] path) ∧
        (IsRow arraySections [{ data := [7] }] path → HasRowAfter arraySections [{ data := [7] }] path →
          run (pressKey arraySections [{ data := [7] }]) path [.downArrow, .upArrow] = some path)) ↔
    Along (pressKey arraySections [{ data := [7] }])
      (fun path key => ¬MovesIntoEmpty arraySections [{ data := [7] }] path key) initialIndexPath
      [.downArrow] :=
  selectedRow_exists_iff arraySections [{ data := [7] }] ⟨_, mem_cons_self, by decide⟩ _

theorem emptySection_selected :
    (∃ sect ∈ ([{ data := [7] }, { data := [] }] : List (SectionBase (List ℕ) ℕ)),
      0 < arraySections.length sect.data) ∧
    run (pressKey arraySections [{ data := [7] }, { data := [] }]) initialIndexPath
      [.downArrow, .downArrow] = some ⟨1, 0⟩ ∧
    ¬IsRow arraySections [{ data := [7] }, { data := [] }] ⟨1, 0⟩ := by
  refine ⟨⟨_, mem_cons_self, by decide⟩, rfl, ?_⟩
  rintro ⟨-, -, within⟩
  exact absurd within (by decide)

/-! ### The reported item -/

variable (props sections) in
/-- The item of each change is the one that is selected now, and a following ENTER enters it. -/
def ReportsSelected (rowIndexPath : RowIndexPath) (key : ListKey) : Prop :=
  ∀ next calls, handleKeyDown props sections rowIndexPath key = some (next, calls) →
    ∀ previousSelection newSelection item,
      .onSelectionChanged previousSelection newSelection item ∈ calls →
        itemAt props sections newSelection = some item ∧
        ∀ after entered, handleKeyDown props sections next .enter = some (after, entered) →
          ∀ enteredItem, .onSelectionEntered enteredItem ∈ entered → enteredItem = item

variable (props sections) in
/-- The selection goes to another item, and is reported. -/
def ReportsPrevious (rowIndexPath : RowIndexPath) (key : ListKey) : Prop :=
  key ≠ .enter ∧ props.onSelectionChanged ∧
    itemAt props sections (nextIndexPath props sections rowIndexPath key) ≠
      itemAt props sections rowIndexPath

theorem handleKeyDown_arrow (isArrow : key ≠ .enter) (calls : props.onSelectionChanged)
    (inside : rowIndexPath.sectionIndex < sections.length) {item : Option Item}
    (isItem : itemAt props sections rowIndexPath = some item) :
    handleKeyDown props sections rowIndexPath key =
      some (nextIndexPath props sections rowIndexPath key,
        [.onSelectionChanged rowIndexPath (nextIndexPath props sections rowIndexPath key) item]) := by
  have visible := @ensureItemAtIndexPathIsVisible_eq _ _ props.toSectionListProps
    (nextIndexPath props sections rowIndexPath key).rowIndex _ sections
    (@nextIndexPath_inside _ _ props sections rowIndexPath key inside).le
  cases key with
  | enter => exact absurd rfl isArrow
  | downArrow => simp only [handleKeyDown, visible, bind_some, if_pos calls, isItem, map_some]
  | upArrow => simp only [handleKeyDown, visible, bind_some, if_pos calls, isItem, map_some]

variable {calls : List (SelectionCall RowIndexPath Item)}

theorem handleKeyDown_changed {previousSelection newSelection : RowIndexPath} {item : Option Item}
    (handled : handleKeyDown props sections rowIndexPath key = some (next, calls))
    (isCall : .onSelectionChanged previousSelection newSelection item ∈ calls) :
    key ≠ .enter ∧ props.onSelectionChanged ∧ itemAt props sections rowIndexPath = some item ∧
      next = nextIndexPath props sections rowIndexPath key ∧ newSelection = next := by
  -- Both arrow keys go through the same calls.
  have arrow (isArrow : key ≠ .enter)
      (bound : ((ensureItemAtIndexPathIsVisible props.toSectionListProps sections
        (nextIndexPath props sections rowIndexPath key)).bind fun _ =>
          if props.onSelectionChanged then
            (itemAt props sections rowIndexPath).map fun item =>
              (nextIndexPath props sections rowIndexPath key,
                [.onSelectionChanged rowIndexPath (nextIndexPath props sections rowIndexPath key) item])
          else some (nextIndexPath props sections rowIndexPath key, [])) = some (next, calls)) :
      key ≠ .enter ∧ props.onSelectionChanged ∧ itemAt props sections rowIndexPath = some item ∧
        next = nextIndexPath props sections rowIndexPath key ∧ newSelection = next := by
    obtain ⟨_, -, result⟩ := bind_eq_some_iff.mp bound
    split at result
    next callback =>
      obtain ⟨found, isItem, same⟩ := map_eq_some_iff.mp result
      obtain ⟨rfl, rfl⟩ := Prod.mk.inj same
      obtain ⟨-, rfl, rfl⟩ := SelectionCall.onSelectionChanged.inj (mem_singleton.mp isCall)
      exact ⟨isArrow, callback, isItem, rfl, rfl⟩
    next =>
      obtain ⟨-, rfl⟩ := Prod.mk.inj (some_inj.mp result)
      cases isCall
  cases key with
  | enter =>
    rw [handleKeyDown] at handled
    split at handled
    · obtain ⟨found, -, same⟩ := map_eq_some_iff.mp handled
      obtain ⟨-, rfl⟩ := Prod.mk.inj same
      cases mem_singleton.mp isCall
    · obtain ⟨-, rfl⟩ := Prod.mk.inj (some_inj.mp handled)
      cases isCall
  | downArrow => exact arrow (by decide) handled
  | upArrow => exact arrow (by decide) handled

theorem handleKeyDown_entered {item : Option Item}
    (handled : handleKeyDown props sections rowIndexPath .enter = some (next, calls))
    (isCall : .onSelectionEntered item ∈ calls) :
    itemAt props sections rowIndexPath = some item := by
  rw [handleKeyDown] at handled
  split at handled
  · obtain ⟨_, isItem, same⟩ := map_eq_some_iff.mp handled
    obtain ⟨-, rfl⟩ := Prod.mk.inj same
    cases mem_singleton.mp isCall
    exact isItem
  · obtain ⟨-, rfl⟩ := Prod.mk.inj (some_inj.mp handled)
    cases isCall

theorem reportsSelected_iff : ReportsSelected props sections rowIndexPath key ↔
      ¬ReportsPrevious props sections rowIndexPath key := by
  constructor
  · rintro reports ⟨isArrow, calls, differs⟩
    rcases Nat.lt_or_ge rowIndexPath.sectionIndex sections.length with inside | outside
    · obtain ⟨item, isItem⟩ := @itemAt_isSome _ _ props sections rowIndexPath inside
      have located := (reports _ _ (handleKeyDown_arrow isArrow calls inside isItem) _ _ _
        (mem_singleton_self _)).1
      exact differs (located.trans isItem.symm)
    · -- there is no such section, and the selection stays
      refine differs (congrArg (itemAt props sections) ?_)
      cases key with
      | downArrow => exact if_pos outside
      | upArrow => exact if_pos outside
      | enter => rfl
  · intro samely next calls handled previousSelection newSelection item isCall
    obtain ⟨isArrow, callback, isItem, rfl, rfl⟩ := handleKeyDown_changed handled isCall
    have located : itemAt props sections (nextIndexPath props sections rowIndexPath key) =
        some item := by
      by_contra differs
      exact samely ⟨isArrow, callback, fun same => differs (same.trans isItem)⟩
    refine ⟨located, fun after entered enters enteredItem isEntered => ?_⟩
    have selected := handleKeyDown_entered enters isEntered
    rw [located, some_inj] at selected
    exact selected.symm

end VirtualizedSectionList

namespace VirtualizedList

variable {Item : Type} {callbacks : SelectionCallbacks Item} {list next : MountedList} {key : ListKey}

variable (props : VirtualizedListProps)

variable (callbacks) in
/-- The item of each change is the one that is selected now, and a following ENTER enters it. -/
def ReportsSelected (list : MountedList) (key : ListKey) : Prop :=
  ∀ previousSelection newSelection item,
    .onSelectionChanged previousSelection newSelection item ∈ keyDownCalls callbacks list key →
      item = newSelection.bind callbacks.getItem ∧
      ∀ next, pressKey list key = some next → ∀ enteredItem,
        .onSelectionEntered enteredItem ∈ keyDownCalls callbacks next .enter → enteredItem = item

/-- No update is pending, and the selected row is none beyond the list. -/
def Settled (list : MountedList) : Prop :=
  list.pending = [] ∧
    ∃ row : ℤ, list.state.selectedRowIndex = some row ∧ 0 ≤ row ∧ row ≤ list.props.itemCount

theorem freshList_settled : Settled (freshList props) :=
  ⟨rfl, 0, by simp [freshList, getDerivedStateFromProps, initialState], le_refl _, by simp [freshList]⟩

def nextRow (row : ℤ) : ListKey → ℤ
  | .downArrow => selectRowBelowIndex props row
  | .upArrow => selectRowAboveIndex row
  | .enter => row

theorem nextRow_inside {row : ℤ} (begins : 0 ≤ row) (ends : row ≤ props.itemCount) :
    0 ≤ nextRow props row key ∧ nextRow props row key ≤ props.itemCount := by
  cases key with
  | downArrow =>
    simp only [nextRow, selectRowBelowIndex]
    split_ifs <;> omega
  | upArrow =>
    simp only [nextRow, selectRowAboveIndex]
    split_ifs <;> omega
  | enter => exact ⟨begins, ends⟩

theorem pressKey_selected {row : ℤ} (none_pending : list.pending = [])
    (selected : list.state.selectedRowIndex = some row) (begins : 0 ≤ row)
    (ends : row ≤ list.props.itemCount) (pressed : pressKey list key = some next) :
    next.props = list.props ∧ next.pending = [] ∧ next.state.selectedRowIndex =
      some (if list.props.onScrollKeyDown then row else nextRow list.props row key) := by
  obtain ⟨state, processed, rfl⟩ := map_eq_some_iff.mp pressed
  refine ⟨rfl, rfl, ?_⟩
  have clamped (kept : ℤ) (begins : 0 ≤ kept) (ends : kept ≤ list.props.itemCount)
      (isKept : state.selectedRowIndex = some kept) :
      (getDerivedStateFromProps list.props state).selectedRowIndex = some kept := by
    simp only [getDerivedStateFromProps, isKept, map_some, some_inj]
    omega
  -- The owner of the list takes the key, and nothing is selected.
  by_cases owner : list.props.onScrollKeyDown
  · rw [handleKeyDown, if_pos owner, none_pending] at processed
    cases processed
    rw [if_pos owner]
    exact clamped row begins ends selected
  · have inside := @nextRow_inside key list.props row begins ends
    rw [handleKeyDown, if_neg owner, none_pending, selected] at processed
    rw [if_neg owner]
    cases key with
    | downArrow =>
      cases processed
      exact clamped _ inside.1 inside.2 rfl
    | upArrow =>
      cases processed
      exact clamped _ inside.1 inside.2 rfl
    | enter =>
      rw [none_pending] at processed
      cases processed
      exact clamped _ inside.1 inside.2 selected

theorem pressKey_settled (settled : Settled list) (pressed : pressKey list key = some next) :
    Settled next := by
  obtain ⟨none_pending, _, selected, begins, ends⟩ := settled
  obtain ⟨sameProps, pending, nextSelected⟩ :=
    pressKey_selected none_pending selected begins ends pressed
  refine ⟨pending, _, nextSelected, ?_⟩
  rw [sameProps]
  split
  · exact ⟨begins, ends⟩
  · exact nextRow_inside list.props begins ends

theorem keyDownCalls_changed {row : ℤ} {previousSelection newSelection : Option ℤ}
    {item : Option Item} (selected : list.state.selectedRowIndex = some row)
    (isCall : .onSelectionChanged previousSelection newSelection item ∈
      keyDownCalls callbacks list key) :
    ¬list.props.onScrollKeyDown ∧ newSelection = some (nextRow list.props row key) ∧
      item = newSelection.bind callbacks.getItem := by
  rw [keyDownCalls, selected] at isCall
  split at isCall
  · cases isCall
  next handles =>
    refine ⟨handles, ?_⟩
    cases key with
    | downArrow =>
      dsimp only at isCall
      split at isCall
      · cases mem_singleton.mp isCall
        exact ⟨rfl, rfl⟩
      · cases isCall
    | upArrow =>
      dsimp only at isCall
      split at isCall
      · cases mem_singleton.mp isCall
        exact ⟨rfl, rfl⟩
      · cases isCall
    | enter =>
      dsimp only at isCall
      split at isCall
      · cases mem_singleton.mp isCall
      · cases isCall

theorem keyDownCalls_entered {item : Option Item}
    (isCall : .onSelectionEntered item ∈ keyDownCalls callbacks list .enter) :
    item = list.state.selectedRowIndex.bind callbacks.getItem := by
  rw [keyDownCalls] at isCall
  split at isCall
  · cases isCall
  · dsimp only at isCall
    split at isCall
    · cases mem_singleton.mp isCall
      rfl
    · cases isCall

theorem reportsSelected (settled : Settled list) : ReportsSelected callbacks list key := by
  obtain ⟨none_pending, _, selected, begins, ends⟩ := settled
  intro previousSelection newSelection item isCall
  obtain ⟨handles, isNew, isItem⟩ := keyDownCalls_changed selected isCall
  refine ⟨isItem, fun next pressed enteredItem isEntered => ?_⟩
  -- The row that was reported is in the state when ENTER comes.
  obtain ⟨-, -, nextSelected⟩ := pressKey_selected none_pending selected begins ends pressed
  rw [if_neg handles, ← isNew] at nextSelected
  rw [keyDownCalls_entered isEntered, nextSelected, isItem]

theorem reportsSelected_along (events : List ListKey) :
    Along pressKey (ReportsSelected callbacks) (freshList props) events := by
  apply along_of_prefixes
  rintro taken key rest list rfl ran
  apply reportsSelected
  refine run_induction ?_ (freshList_settled props)
    (along_of_forall (fun _ _ => trivial) (freshList props)) ran
  intro state action next settled _ stepped
  exact pressKey_settled settled stepped

end VirtualizedList

/-- Both kinds of lists report the item that is selected exactly if the section list never selects
another item than before. -/
theorem selection_reported_iff {Data Item : Type} (listProps : VirtualizedListProps)
    (callbacks : SelectionCallbacks Item) (listEvents : List ListKey)
    (props : SelectableListProps Data Item) (sections : List (SectionBase Data Item))
    (events : List ListKey) :
    (Along VirtualizedList.pressKey (VirtualizedList.ReportsSelected callbacks)
        (VirtualizedList.freshList listProps) listEvents ∧
      Along (pressKey props sections)
        (VirtualizedSectionList.ReportsSelected props sections)
        initialIndexPath events) ↔
    Along (pressKey props sections)
      (fun path key => ¬VirtualizedSectionList.ReportsPrevious props sections path key)
      initialIndexPath events := by
  rw [and_iff_right (VirtualizedList.reportsSelected_along listProps listEvents)]
  constructor
  · exact along_mono fun _ _ => reportsSelected_iff.mp
  · exact along_mono fun _ _ => reportsSelected_iff.mpr

theorem firstRow_unreported :
    ¬Along (pressKey arraySections [{ data := [7] }])
      (VirtualizedSectionList.ReportsSelected arraySections [{ data := [7] }])
      initialIndexPath [.downArrow] := by
  rintro ⟨reports, -⟩
  have located := (reports ⟨0, 0⟩ [.onSelectionChanged ⟨0, -1⟩ ⟨0, 0⟩ none] rfl _ _ _
    (mem_singleton_self _)).1
  exact absurd located (by decide)

end ReactNative

