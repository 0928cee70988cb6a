import Mathlib.Data.Int.Notation
import Mathlib.Data.Nat.Notation

/-! A section list hands all its sections to a virtualized list, with a header before the items of
each section and a footer after them. -/
namespace ReactNative

structure SectionBase (Data Item : Type) where
  data : Data
  key : Option String := none
  /-- Overrides the one in the props. -/
  keyExtractor : Option (Option Item → ℤ → String) := none

structure SectionListProps (Data Item : Type) where
  hasListHeaderComponent : Bool := false
  stickySectionHeadersEnabled : Bool := false
  getItem : Data → ℤ → Option Item
  getItemCount : Data → ℕ
  keyExtractor : Option Item → ℤ → String
  /-- The `length` of a data blob. -/
  length : Data → ℕ

structure SectionListChildProps where
  itemCount : ℕ
  stickyHeaderIndices : Option (List ℕ)

/-- The item of a header or footer is its section. -/
inductive SectionListItem (Data Item : Type) where
  | ofSection (sect : SectionBase Data Item)
  | item (item : Option Item)

structure SubInfo (Data Item : Type) where
  sect : SectionBase Data Item
  key : String
  index : Option ℤ
  header : Option Bool := none
  leadingItem : Option Item := none
  leadingSection : Option (SectionBase Data Item) := none
  trailingItem : Option Item := none
  trailingSection : Option (SectionBase Data Item) := none

structure RowIndexPath where
  sectionIndex : ℕ
  rowIndex : ℤ

namespace VirtualizedSectionList

variable {Data Item : Type} (props : SectionListProps Data Item)

variable (sections : Option (List (SectionBase Data Item)))

def computeState : SectionListChildProps :=
  let offset := if props.hasListHeaderComponent then 1 else 0
  let reduced := (sections.getD []).foldl (fun reduced sect =>
    (reduced.1 ++ [reduced.2 + offset], reduced.2 + props.getItemCount sect.data + 2)) ([], 0)
  { itemCount := reduced.2
    stickyHeaderIndices := if props.stickySectionHeadersEnabled then some reduced.1 else none }

/-- The index is that of an item if neither a header nor a footer. -/
def getItemFrom : ℤ → List (SectionBase Data Item) → Option (SectionListItem Data Item)
  | _, [] => none
  | itemIdx, sect :: rest =>
    let itemCount : ℤ := props.getItemCount sect.data
    if itemIdx = -1 ∨ itemIdx = itemCount then some (.ofSection sect)
    else if itemIdx < itemCount then some (.item (props.getItem sect.data itemIdx))
    else getItemFrom (itemIdx - (itemCount + 2)) rest

def getItem (index : ℤ) : Option (SectionListItem Data Item) :=
  sections.bind (getItemFrom props (index - 1))

/-- An array has nothing outside of its bounds. -/
def at? {A : Type} (array : List A) (index : ℤ) : Option A :=
  if index < 0 then none else array[index.toNat]?

def sectionKey (sect : SectionBase Data Item) (i : ℕ) : String :=
  match sect.key with
  | some key => if key = "" then toString i else key
  | none => toString i

/-- The sections that are left, of which the first has the index. -/
def subExtractorFrom (sections : List (SectionBase Data Item)) :
    ℕ → ℤ → List (SectionBase Data Item) → Option (SubInfo Data Item)
  | _, _, [] => none
  | i, itemIndex, sect :: rest =>
    let key := sectionKey sect i
    let itemIndex := itemIndex - 1
    let itemCount : ℤ := props.getItemCount sect.data
    if itemIndex ≥ itemCount + 1 then
      subExtractorFrom sections (i + 1) (itemIndex - (itemCount + 1)) rest
    else if itemIndex = -1 then some
      { sect := sect
        key := key ++ ":header"
        index := none
        header := some true
        trailingSection := at? sections (i + 1) }
    else if itemIndex = itemCount then some
      { sect := sect
        key := key ++ ":footer"
        index := none
        header := some false
        trailingSection := at? sections (i + 1) }
    else
      let extractor := sect.keyExtractor.getD props.keyExtractor
      some
        { sect := sect
          key := key ++ ":" ++ extractor (props.getItem sect.data itemIndex) itemIndex
          index := some itemIndex
          leadingItem := props.getItem sect.data (itemIndex - 1)
          leadingSection := at? sections (i - 1)
          trailingItem := props.getItem sect.data (itemIndex + 1)
          trailingSection := at? sections (i + 1) }

variable (sections : List (SectionBase Data Item))

def subExtractor (index : ℤ) : Option (SubInfo Data Item) :=
  subExtractorFrom props sections 0 index sections

/-- The index that the list is told to make visible, unless there is no such section. -/
def ensureItemAtIndexPathIsVisible (rowIndexPath : RowIndexPath) : Option ℤ :=
  (List.range rowIndexPath.sectionIndex).foldlM
    (fun index ii => sections[ii]?.map fun sect => index + (props.length sect.data + 2))
    (rowIndexPath.rowIndex + 1)

end VirtualizedSectionList

end ReactNative

