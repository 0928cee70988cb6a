import Mathlib.Data.Int.Range
import ReactNative.Lists.VirtualizeUtils

/-! An update scans the rendered items for viewable ones. If they are others than at the last
update, the change is reported, or a timer is set that reports later those of them that are still
viewable then. -/
namespace ReactNative

open List

variable (Item : Type)

structure ViewToken where
  item : Item
  key : String
  index : ℤ
  isViewable : Bool
  deriving DecidableEq

structure ViewabilityConfig where
  /-- 0 stands for none. -/
  minimumViewTime : ℚ := 0
  viewAreaCoveragePercentThreshold : Option ℚ := none
  itemVisiblePercentThreshold : Option ℚ := none
  waitForInteraction : Bool := false

structure Viewport where
  itemCount : ℕ
  scrollOffset : ℚ
  viewportHeight : ℚ
  getFrameMetrics : ℤ → Option FrameMetrics
  renderRange : Option RenderLimits := none

structure TokenSource where
  getItem : ℤ → Item
  keyExtractor : ℤ → String

structure ViewableItemsChange where
  viewableItems : List (ViewToken Item)
  changed : List (ViewToken Item)
  deriving DecidableEq

structure ViewabilityHelper where
  hasInteracted : Bool := false
  viewableIndices : List ℤ := []
  viewableItems : List (ViewToken Item) := []
  notifications : List (ViewableItemsChange Item) := []
  deriving DecidableEq

namespace ViewabilityHelper

def isEntirelyVisible (top bottom viewportHeight : ℚ) : Bool :=
  top ≥ 0 ∧ bottom ≤ viewportHeight ∧ bottom > top

def getPixelsVisible (top bottom viewportHeight : ℚ) : ℚ :=
  max 0 (min bottom viewportHeight - max top 0)

/-- No share of nothing reaches the threshold. -/
def isViewable (viewAreaMode : Bool) (viewablePercentThreshold top bottom viewportHeight
    itemLength : ℚ) : Bool :=
  isEntirelyVisible top bottom viewportHeight ||
    let whole := if viewAreaMode then viewportHeight else itemLength
    whole ≠ 0 ∧
      100 * (getPixelsVisible top bottom viewportHeight / whole) ≥ viewablePercentThreshold

def scanItems (viewAreaMode : Bool) (viewablePercentThreshold : ℚ) (viewport : Viewport) :
    (firstVisible : ℤ) → List ℤ → List ℤ
  | _, [] => []
  | firstVisible, idx :: rest =>
    match viewport.getFrameMetrics idx with
    | none => scanItems viewAreaMode viewablePercentThreshold viewport firstVisible rest
    | some metrics =>
      let top := metrics.offset - viewport.scrollOffset
      let bottom := top + metrics.length
      if top < viewport.viewportHeight ∧ bottom > 0 then
        let later := scanItems viewAreaMode viewablePercentThreshold viewport idx rest
        if isViewable viewAreaMode viewablePercentThreshold top bottom viewport.viewportHeight
            metrics.length then idx :: later
        else later
      else if firstVisible ≥ 0 then []
      else scanItems viewAreaMode viewablePercentThreshold viewport firstVisible rest

variable (config : ViewabilityConfig)

/-- Throws unless exactly one threshold is set. -/
def viewableThreshold : Option (Bool × ℚ) :=
  match config.viewAreaCoveragePercentThreshold, config.itemVisiblePercentThreshold with
  | some threshold, none => some (true, threshold)
  | none, some threshold => some (false, threshold)
  | _, _ => none

def computeViewableItems (viewport : Viewport) : Option (List ℤ) :=
  (viewableThreshold config).map fun (viewAreaMode, viewablePercentThreshold) =>
    if viewport.itemCount = 0 then []
    else
      let range := viewport.renderRange.getD ⟨0, viewport.itemCount - 1⟩
      if range.last ≥ viewport.itemCount then []
      else scanItems viewAreaMode viewablePercentThreshold viewport (-1)
        (Int.range range.first (range.last + 1))

variable {Item : Type} (source : TokenSource Item)

def createViewToken (index : ℤ) (isViewable : Bool) : ViewToken Item where
  item := source.getItem index
  key := source.keyExtractor index
  index := index
  isViewable := isViewable

variable (items : List (ViewToken Item))

def keys : List String := items.map ViewToken.key

def setItem (viewable : ViewToken Item) : List (ViewToken Item) :=
  if viewable.key ∈ keys items then
    items.map fun item => if item.key = viewable.key then viewable else item
  else items ++ [viewable]

def nextItems (viewableIndices : List ℤ) : List (ViewToken Item) :=
  (viewableIndices.map fun ii => createViewToken source ii true).foldl setItem []

/-- The items that have come, and those that have gone. -/
def changedItems (prevItems nextItems : List (ViewToken Item)) : List (ViewToken Item) :=
  nextItems.filter (fun viewable => viewable.key ∉ keys prevItems) ++
    (prevItems.filter fun viewable => viewable.key ∉ keys nextItems).map
      fun viewable => { viewable with isViewable := false }

variable (helper : ViewabilityHelper Item)

/-- Those that have gone out of view since the call was scheduled. -/
def stillViewable (viewableIndices : List ℤ) : List ℤ :=
  viewableIndices.filter (· ∈ helper.viewableIndices)

def onUpdateSync (viewableIndicesToCheck : List ℤ)
    (helper : ViewabilityHelper Item) : ViewabilityHelper Item :=
  let prevItems := helper.viewableItems
  let nextItems := nextItems source (helper.stillViewable viewableIndicesToCheck)
  let changed := changedItems prevItems nextItems
  if changed.length > 0 then
    { helper with
      viewableItems := nextItems
      notifications := helper.notifications ++ [⟨nextItems, changed⟩] }
  else helper

/-- The helper after the update, and the indices that a timer is set with. -/
def onUpdate (config : ViewabilityConfig) (source : TokenSource Item) (viewport : Viewport)
    (helper : ViewabilityHelper Item) : Option (ViewabilityHelper Item × Option (List ℤ)) :=
  if (config.waitForInteraction && !helper.hasInteracted) || viewport.itemCount = 0 ||
      (viewport.getFrameMetrics 0).isNone then
    some (helper, none)
  else
    (computeViewableItems config viewport).map fun viewableIndices =>
      if helper.viewableIndices = viewableIndices then (helper, none)
      else
        let helper := { helper with viewableIndices := viewableIndices }
        if config.minimumViewTime ≠ 0 then (helper, some viewableIndices)
        else (onUpdateSync source viewableIndices helper, none)

def resetViewableIndices : ViewabilityHelper Item :=
  { helper with viewableIndices := [] }

def recordInteraction : ViewabilityHelper Item :=
  { helper with hasInteracted := true }

/-! ### Items by their keys -/

variable {source : TokenSource Item} {items prevItems : List (ViewToken Item)}
  {viewable : ViewToken Item} {viewableIndices : List ℤ} {key : String}

@[simp] theorem keys_cons : keys (viewable :: items) = viewable.key :: keys items := rfl

theorem mem_keys_setItem : key ∈ keys (setItem items viewable) ↔ key ∈ keys items ∨ key = viewable.key := by
  rw [setItem]
  split
  next present =>
    have sameKeys : keys (items.map fun item => if item.key = viewable.key then viewable else item) =
        keys items := by
      rw [keys, keys, List.map_map]
      refine map_congr_left fun item _ => ?_
      by_cases same : item.key = viewable.key <;> simp [same]
    rw [sameKeys]
    constructor
    · exact Or.inl
    · rintro (inItems | rfl)
      · exact inItems
      · exact present
  next => simp [keys]

theorem mem_keys_setItems (added : List (ViewToken Item)) :
    key ∈ keys (added.foldl setItem items) ↔ key ∈ keys items ∨ key ∈ keys added := by
  induction added generalizing items with
  | nil => simp [keys]
  | cons _ _ ih =>
    rw [foldl_cons, ih, mem_keys_setItem, keys_cons, mem_cons, or_assoc]

theorem mem_keys_nextItems : key ∈ keys (nextItems source viewableIndices) ↔
      ∃ ii ∈ viewableIndices, source.keyExtractor ii = key := by
  rw [nextItems, mem_keys_setItems]
  simp [keys, createViewToken]

theorem mem_setItem {item : ViewToken Item} (member : item ∈ setItem items viewable) :
    item ∈ items ∨ item = viewable := by
  rw [setItem] at member
  split at member
  · obtain ⟨old, isOld, rfl⟩ := mem_map.mp member
    by_cases same : old.key = viewable.key
    · exact .inr (if_pos same)
    · rw [if_neg same]
      exact .inl isOld
  · simpa using member

theorem mem_setItems {item : ViewToken Item} (added : List (ViewToken Item))
    (member : item ∈ added.foldl setItem items) : item ∈ items ∨ item ∈ added := by
  induction added generalizing items with
  | nil => exact .inl member
  | cons _ _ ih =>
    rcases ih member with before | later
    · rcases mem_setItem before with old | rfl
      · exact .inl old
      · exact .inr mem_cons_self
    · exact .inr (mem_cons_of_mem _ later)

theorem mem_nextItems (member : viewable ∈ nextItems source viewableIndices) :
    ∃ ii ∈ viewableIndices, viewable = createViewToken source ii true := by
  rcases mem_setItems _ member with none_before | added
  · cases none_before
  · obtain ⟨ii, isIndex, rfl⟩ := mem_map.mp added
    exact ⟨ii, isIndex, rfl⟩

theorem mem_index_nextItems (distinct : Function.Injective source.keyExtractor) (ii : ℤ) :
    (∃ viewable ∈ nextItems source viewableIndices, viewable.index = ii) ↔ ii ∈ viewableIndices := by
  constructor
  · rintro ⟨viewable, member, rfl⟩
    obtain ⟨jj, isIndex, rfl⟩ := mem_nextItems member
    exact isIndex
  · intro isIndex
    have present : source.keyExtractor ii ∈ keys (nextItems source viewableIndices) :=
      mem_keys_nextItems.mpr ⟨ii, isIndex, rfl⟩
    obtain ⟨viewable, member, sameKey⟩ := mem_map.mp present
    obtain ⟨jj, -, rfl⟩ := mem_nextItems member
    exact ⟨_, member, distinct sameKey⟩

theorem changedItems_eq_nil_iff {nextItems : List (ViewToken Item)} :
    changedItems prevItems nextItems = [] ↔ ∀ key, key ∈ keys prevItems ↔ key ∈ keys nextItems := by
  simp only [changedItems, append_eq_nil_iff, map_eq_nil_iff, filter_eq_nil_iff,
    decide_eq_true_eq, not_not]
  constructor
  · rintro ⟨noneCame, noneWent⟩ key
    constructor
    · intro before
      obtain ⟨viewable, member, rfl⟩ := mem_map.mp before
      exact noneWent viewable member
    · intro after
      obtain ⟨viewable, member, rfl⟩ := mem_map.mp after
      exact noneCame viewable member
  · intro same
    exact ⟨fun viewable member => (same _).mpr (mem_map_of_mem member),
      fun viewable member => (same _).mp (mem_map_of_mem member)⟩

/-- A sign and as many strokes as the index has. -/
def strokes (index : ℤ) : String :=
  String.ofList ((if index < 0 then '-' else '+') :: replicate index.natAbs '|')

theorem strokes_injective : Function.Injective strokes := by
  intro first second same
  obtain ⟨sameSign, sameStrokes⟩ := List.cons.inj (String.ofList_injective same)
  have sameLength := congrArg List.length sameStrokes
  rw [length_replicate, length_replicate] at sameLength
  split at sameSign <;> split at sameSign <;> simp at sameSign <;> omega

end ViewabilityHelper

end ReactNative

