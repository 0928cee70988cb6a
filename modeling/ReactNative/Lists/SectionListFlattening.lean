import Mathlib.Algebra.Order.Ring.Nat
import Mathlib.Data.List.Basic
import ReactNative.Lists.VirtualizedSectionList

/-! The flat list has a header, the items and a footer for each section in order. -/
namespace ReactNative

open List

namespace VirtualizedSectionList

/-- What there is at an index, by the positions of the section and of the row in it. -/
inductive FlatEntry where
  | header (sectionIndex : ℕ)
  | row (sectionIndex rowIndex : ℕ)
  | footer (sectionIndex : ℕ)
  deriving DecidableEq

def FlatEntry.isHeader : FlatEntry → Bool
  | .header _ => true
  | .row _ _ | .footer _ => false

variable {Data Item : Type} (props : SectionListProps Data Item)

/-- The sections from an index on. -/
def flattenFrom : ℕ → List (SectionBase Data Item) → List FlatEntry
  | _, [] => []
  | first, sect :: rest =>
    .header first :: (range (props.getItemCount sect.data)).map (.row first) ++
      .footer first :: flattenFrom (first + 1) rest

variable (sections : List (SectionBase Data Item))

def flatten : List FlatEntry := flattenFrom props 0 sections

def rowItem (sect : SectionBase Data Item) (rowIndex : ℤ) : Option Item :=
  if 0 ≤ rowIndex ∧ rowIndex < props.getItemCount sect.data then
    props.getItem sect.data rowIndex
  else none

def itemOf : FlatEntry → Option (SectionListItem Data Item)
  | .header s | .footer s => sections[s]?.map .ofSection
  | .row s r => sections[s]?.map fun sect => .item (props.getItem sect.data r)

/-- A row has its neighbours, and a header or a footer the section after its own. -/
def infoOf : FlatEntry → Option (SubInfo Data Item)
  | .header s => sections[s]?.map fun sect =>
    { sect := sect
      key := sectionKey sect s ++ ":header"
      index := none
      header := some true
      trailingSection := sections[s + 1]? }
  | .row s r => sections[s]?.map fun sect =>
    { sect := sect
      key := sectionKey sect s ++ ":" ++
        sect.keyExtractor.getD props.keyExtractor (props.getItem sect.data r) r
      index := some r
      leadingItem := rowItem props sect (r - 1)
      leadingSection := if s = 0 then none else sections[s - 1]?
      trailingItem := rowItem props sect (r + 1)
      trailingSection := sections[s + 1]? }
  | .footer s => sections[s]?.map fun sect =>
    { sect := sect
      key := sectionKey sect s ++ ":footer"
      index := none
      header := some false
      trailingSection := sections[s + 1]? }

structure Agrees : Prop where
  itemCount : (computeState props (some sections)).itemCount = (flatten props sections).length
  stickyHeaderIndices : props.stickySectionHeadersEnabled →
    (computeState props (some sections)).stickyHeaderIndices = some
      (((flatten props sections).findIdxs FlatEntry.isHeader).map
        fun position => position + if props.hasListHeaderComponent then 1 else 0)
  items : ∀ k : ℕ, getItem props (some sections) k =
    (flatten props sections)[k]?.bind (itemOf props sections)
  infos : ∀ k : ℕ, subExtractor props sections k =
    (flatten props sections)[k]?.bind (infoOf props sections)
  visible : ∀ s r sect, sections[s]? = some sect → r < props.getItemCount sect.data →
    ∀ k : ℕ, ensureItemAtIndexPathIsVisible props sections ⟨s, r⟩ = some (k : ℤ) ↔
      (flatten props sections)[k]? = some (.row s r)

/-- A section with items has nothing next to them. -/
def Bounded : Prop :=
  ∀ sect ∈ sections, 0 < props.getItemCount sect.data → props.getItem sect.data (-1) = none ∧
      props.getItem sect.data (props.getItemCount sect.data) = none

/-- Before each section with items, the data blobs are as long as there are items. -/
def LengthsCount : Prop :=
  ∀ s sect, sections[s]? = some sect → 0 < props.getItemCount sect.data →
    ((sections.take s).map fun before => props.length before.data).sum =
      ((sections.take s).map fun before => props.getItemCount before.data).sum

variable {props}

/-! ### The flattening -/

section

variable (first : ℕ) (sect : SectionBase Data Item) (rest : List (SectionBase Data Item))

theorem getElem?_flattenFrom (k : ℕ) :
    (flattenFrom props first (sect :: rest))[k]? = if k = 0 then some (.header first)
      else if k ≤ props.getItemCount sect.data then some (.row first (k - 1))
      else if k = props.getItemCount sect.data + 1 then some (.footer first)
      else (flattenFrom props (first + 1) rest)[k - (props.getItemCount sect.data + 2)]? := by
  rw [flattenFrom]
  cases k with
  | zero => rfl
  | succ k =>
    rw [cons_append, getElem?_cons_succ, if_neg (Nat.succ_ne_zero k)]
    by_cases inRows : k < props.getItemCount sect.data
    · rw [getElem?_append_left (by simpa using inRows), if_pos (by omega)]
      simp [inRows]
    · rw [getElem?_append_right (by simpa using inRows), if_neg (by omega), length_map,
        length_range]
      by_cases isFooter : k = props.getItemCount sect.data
      · simp [isFooter]
      · have later : k - props.getItemCount sect.data =
            k - (props.getItemCount sect.data + 1) + 1 := by omega
        rw [if_neg (by omega), later, getElem?_cons_succ]
        congr 1
        omega

theorem length_flattenFrom_cons :
    (flattenFrom props first (sect :: rest)).length =
      props.getItemCount sect.data + 2 + (flattenFrom props (first + 1) rest).length := by
  simp [flattenFrom]
  omega

theorem findIdxs_flattenFrom_cons (start : ℕ) :
    (flattenFrom props first (sect :: rest)).findIdxs FlatEntry.isHeader start =
      start :: (flattenFrom props (first + 1) rest).findIdxs FlatEntry.isHeader
        (start + props.getItemCount sect.data + 2) := by
  have rows : ((range (props.getItemCount sect.data)).map (FlatEntry.row first)).findIdxs
      FlatEntry.isHeader (start + 1) = [] := by
    rw [findIdxs_eq_nil_iff]
    simp [FlatEntry.isHeader]
  have header : (FlatEntry.header first).isHeader = true := rfl
  have footer : ¬(FlatEntry.footer first).isHeader = true := by simp [FlatEntry.isHeader]
  have next : start + 1 + props.getItemCount sect.data + 1 =
      start + props.getItemCount sect.data + 2 := by omega
  rw [flattenFrom, cons_append, findIdxs_cons, if_pos header, findIdxs_append, rows,
    nil_append, findIdxs_cons, if_neg footer, length_map, length_range, next]

end

theorem foldl_computeState (offset first start : ℕ) (pushed : List ℕ)
    (sections : List (SectionBase Data Item)) :
    sections.foldl (fun reduced sect => (reduced.1 ++ [reduced.2 + offset],
        reduced.2 + props.getItemCount sect.data + 2)) (pushed, start) =
      (pushed ++ ((flattenFrom props first sections).findIdxs FlatEntry.isHeader start).map
          (· + offset), start + (flattenFrom props first sections).length) := by
  induction sections generalizing first start pushed with
  | nil => simp [flattenFrom]
  | cons sect _ ih =>
    rw [foldl_cons, ih (first + 1), findIdxs_flattenFrom_cons, length_flattenFrom_cons]
    simp
    omega

variable (sections : List (SectionBase Data Item))

theorem computeState_eq :
    (computeState props (some sections)).itemCount = (flatten props sections).length ∧
      (props.stickySectionHeadersEnabled →
        (computeState props (some sections)).stickyHeaderIndices = some
          (((flatten props sections).findIdxs FlatEntry.isHeader).map
            fun position => position + if props.hasListHeaderComponent then 1 else 0)) := by
  have reduced := @foldl_computeState Data Item props
    (if props.hasListHeaderComponent then 1 else 0) 0 0 [] sections
  constructor
  · rw [computeState]
    dsimp only [Option.getD_some]
    rw [reduced, Nat.zero_add]
    rfl
  · intro enabled
    rw [computeState]
    dsimp only [Option.getD_some]
    rw [reduced, if_pos enabled]
    rfl

theorem getItemFrom_eq (first k : ℕ) (before sections : List (SectionBase Data Item))
    (position : before.length = first) :
    getItemFrom props ((k : ℤ) - 1) sections =
      (flattenFrom props first sections)[k]?.bind (itemOf props (before ++ sections)) := by
  induction sections generalizing first k before with
  | nil => rfl
  | cons sect rest ih =>
    have here : (before ++ sect :: rest)[first]? = some sect := by
      rw [← position]
      simp
    rw [getItemFrom, getElem?_flattenFrom]
    by_cases isHeader : k = 0
    · simp [isHeader, itemOf, here]
    · by_cases inRows : k ≤ props.getItemCount sect.data
      · have notEnd : ¬((k : ℤ) - 1 = -1 ∨ (k : ℤ) - 1 = props.getItemCount sect.data) := by
          omega
        have isRow : (k : ℤ) - 1 < props.getItemCount sect.data := by omega
        have row : ((k - 1 : ℕ) : ℤ) = (k : ℤ) - 1 := by omega
        rw [if_neg notEnd, if_pos isRow, if_neg isHeader, if_pos inRows, Option.bind_some, itemOf,
          here, Option.map_some, row]
      · rw [if_neg isHeader, if_neg inRows]
        by_cases isFooter : k = props.getItemCount sect.data + 1
        · have isEnd : (k : ℤ) - 1 = -1 ∨ (k : ℤ) - 1 = props.getItemCount sect.data := by omega
          rw [if_pos isEnd, if_pos isFooter, Option.bind_some, itemOf, here, Option.map_some]
        · have notEnd : ¬((k : ℤ) - 1 = -1 ∨ (k : ℤ) - 1 = props.getItemCount sect.data) := by
            omega
          have notRow : ¬(k : ℤ) - 1 < props.getItemCount sect.data := by omega
          have later : (k : ℤ) - 1 - (props.getItemCount sect.data + 2) =
              ((k - (props.getItemCount sect.data + 2) : ℕ) : ℤ) - 1 := by omega
          rw [if_neg notEnd, if_neg notRow, if_neg isFooter, later,
            ih (first + 1) _ (before ++ [sect]) (by simp [position]), append_assoc]
          rfl

theorem getItem_eq (k : ℕ) :
    getItem props (some sections) k = (flatten props sections)[k]?.bind (itemOf props sections) :=
  getItemFrom_eq 0 k [] sections rfl

/-! ### The infos -/

def reportedInfo (props : SectionListProps Data Item) (sections : List (SectionBase Data Item)) :
    FlatEntry → Option (SubInfo Data Item)
  | .row s r => sections[s]?.map fun sect =>
    { sect := sect
      key := sectionKey sect s ++ ":" ++
        sect.keyExtractor.getD props.keyExtractor (props.getItem sect.data r) r
      index := some r
      leadingItem := props.getItem sect.data (r - 1)
      leadingSection := if s = 0 then none else sections[s - 1]?
      trailingItem := props.getItem sect.data (r + 1)
      trailingSection := sections[s + 1]? }
  | .header s => infoOf props sections (.header s)
  | .footer s => infoOf props sections (.footer s)

theorem at?_natCast {A : Type} (array : List A) (index : ℕ) : at? array index = array[index]? := by
  rw [at?, if_neg (by omega), Int.toNat_natCast]

theorem at?_pred {A : Type} (array : List A) (index : ℕ) :
    at? array ((index : ℤ) - 1) = if index = 0 then none else array[index - 1]? := by
  rw [at?]
  by_cases first : index = 0
  · simp [first]
  · have position : ((index : ℤ) - 1).toNat = index - 1 := by omega
    rw [if_neg (by omega), if_neg first, position]

theorem subExtractorFrom_eq (first k : ℕ) (before sections : List (SectionBase Data Item))
    (position : before.length = first) :
    subExtractorFrom props (before ++ sections) first k sections =
      (flattenFrom props first sections)[k]?.bind (reportedInfo props (before ++ sections)) := by
  -- Induction over the sections; `before` are those that were skipped.
  induction sections generalizing first k before with
  | nil => rfl
  | cons sect rest ih =>
    have here : (before ++ sect :: rest)[first]? = some sect := by
      rw [← position]
      simp
    have next : at? (before ++ sect :: rest) ((first : ℤ) + 1) =
        (before ++ sect :: rest)[first + 1]? := at?_natCast _ (first + 1)
    rw [subExtractorFrom, getElem?_flattenFrom, next, at?_pred]
    -- The entry is the header, a row or the footer of this section, or belongs to a later one.
    by_cases isHeader : k = 0
    · have notLater : ¬(k : ℤ) - 1 ≥ props.getItemCount sect.data + 1 := by omega
      have isFirst : (k : ℤ) - 1 = -1 := by omega
      rw [if_neg notLater, if_pos isFirst, if_pos isHeader, Option.bind_some, reportedInfo, infoOf,
        here, Option.map_some]
    · by_cases inRows : k ≤ props.getItemCount sect.data
      · have notLater : ¬(k : ℤ) - 1 ≥ props.getItemCount sect.data + 1 := by omega
        have notFirst : ¬(k : ℤ) - 1 = -1 := by omega
        have notLast : ¬(k : ℤ) - 1 = props.getItemCount sect.data := by omega
        have row : ((k - 1 : ℕ) : ℤ) = (k : ℤ) - 1 := by omega
        rw [if_neg notLater, if_neg notFirst, if_neg notLast, if_neg isHeader, if_pos inRows,
          Option.bind_some, reportedInfo, here, Option.map_some, row]
      · rw [if_neg isHeader, if_neg inRows]
        by_cases isFooter : k = props.getItemCount sect.data + 1
        · have notLater : ¬(k : ℤ) - 1 ≥ props.getItemCount sect.data + 1 := by omega
          have notFirst : ¬(k : ℤ) - 1 = -1 := by omega
          have isLast : (k : ℤ) - 1 = props.getItemCount sect.data := by omega
          rw [if_neg notLater, if_neg notFirst, if_pos isLast, if_pos isFooter, Option.bind_some,
            reportedInfo, infoOf, here, Option.map_some]
        · have later : (k : ℤ) - 1 ≥ props.getItemCount sect.data + 1 := by omega
          have index : (k : ℤ) - 1 - (props.getItemCount sect.data + 1) =
              ((k - (props.getItemCount sect.data + 2) : ℕ) : ℤ) := by omega
          have shifted : before ++ sect :: rest = (before ++ [sect]) ++ rest := by simp
          rw [if_pos later, if_neg isFooter, index, shifted]
          exact ih (first + 1) _ (before ++ [sect]) (by simp [position])

/-! ### The rows -/

def entryCount (props : SectionListProps Data Item) (sections : List (SectionBase Data Item)) : ℕ :=
  (sections.map fun sect => props.getItemCount sect.data + 2).sum

theorem flattenFrom_row_iff (first k s r : ℕ) (sections : List (SectionBase Data Item)) :
    (flattenFrom props first sections)[k]? = some (.row s r) ↔
      ∃ j sect, s = first + j ∧ sections[j]? = some sect ∧
        r < props.getItemCount sect.data ∧ k = entryCount props (sections.take j) + (r + 1) := by
  induction sections generalizing first k with
  | nil => simp [flattenFrom]
  | cons sect _ ih =>
    rw [getElem?_flattenFrom]
    constructor
    · intro found
      split_ifs at found with isHeader inRows isFooter
      · cases found
      · cases found
        exact ⟨0, sect, rfl, rfl, by omega, by simp [entryCount]; omega⟩
      · cases found
      · obtain ⟨j, other, rfl, there, inOther, position⟩ := (ih (first + 1) _).mp found
        refine ⟨j + 1, other, by omega, there, inOther, ?_⟩
        rw [take_succ_cons, entryCount, map_cons, sum_cons, ← entryCount]
        omega
    · rintro ⟨j, other, rfl, there, inOther, position⟩
      cases j with
      | zero =>
        cases there
        have index : k = r + 1 := by simpa [entryCount] using position
        rw [if_neg (by omega), if_pos (by omega), index]
        rfl
      | succ j =>
        rw [take_succ_cons, entryCount, map_cons, sum_cons, ← entryCount] at position
        rw [if_neg (by omega), if_neg (by omega), if_neg (by omega)]
        exact (ih (first + 1) _).mpr ⟨j, other, by omega, there, inOther, by omega⟩

theorem flatten_row_iff (k s r : ℕ) (sections : List (SectionBase Data Item)) :
    (flatten props sections)[k]? = some (.row s r) ↔
      ∃ sect, sections[s]? = some sect ∧ r < props.getItemCount sect.data ∧
        k = entryCount props (sections.take s) + (r + 1) := by
  rw [flatten, flattenFrom_row_iff]
  constructor
  · rintro ⟨j, sect, rfl, there, inSection, position⟩
    rw [Nat.zero_add]
    exact ⟨sect, there, inSection, position⟩
  · rintro ⟨sect, there, inSection, position⟩
    exact ⟨s, sect, (Nat.zero_add s).symm, there, inSection, position⟩

variable {sect : SectionBase Data Item} {rowIndex : ℤ}

theorem rowItem_of_outside
    (outside : rowIndex < 0 ∨ (props.getItemCount sect.data : ℤ) ≤ rowIndex) :
    rowItem props sect rowIndex = none := by
  rw [rowItem, if_neg (by omega)]

theorem rowItem_eq (bounded : props.getItem sect.data (-1) = none ∧
      props.getItem sect.data (props.getItemCount sect.data) = none)
    (near : -1 ≤ rowIndex ∧ rowIndex ≤ props.getItemCount sect.data) :
    rowItem props sect rowIndex = props.getItem sect.data rowIndex := by
  rw [rowItem]
  split
  next => rfl
  next outside =>
    by_cases before : rowIndex = -1
    · rw [before, bounded.1]
    · have after : rowIndex = props.getItemCount sect.data := by omega
      rw [after, bounded.2]

theorem infos_iff : (∀ k : ℕ, subExtractor props sections k =
      (flatten props sections)[k]?.bind (infoOf props sections)) ↔ Bounded props sections := by
  have reported : ∀ k : ℕ, subExtractor props sections k =
      (flatten props sections)[k]?.bind (reportedInfo props sections) :=
    fun k => subExtractorFrom_eq 0 k [] sections rfl
  simp only [reported]
  constructor
  -- Of a section with items, the first and the last row show what stands next to it.
  · intro agree sect member some
    obtain ⟨s, there⟩ := mem_iff_getElem?.mp member
    have rows : ∀ r, r < props.getItemCount sect.data →
        props.getItem sect.data (r - 1) = rowItem props sect (r - 1) ∧
          props.getItem sect.data (r + 1) = rowItem props sect (r + 1) := by
      intro r inSection
      have entry := (flatten_row_iff _ s r sections).mpr ⟨sect, there, inSection, rfl⟩
      have infos := agree (entryCount props (sections.take s) + (r + 1))
      rw [entry, Option.bind_some, Option.bind_some, reportedInfo, infoOf, there] at infos
      have same := Option.some.inj infos
      exact ⟨congrArg SubInfo.leadingItem same, congrArg SubInfo.trailingItem same⟩
    constructor
    · have leading := (rows 0 some).1
      exact leading
    · have trailing := (rows (props.getItemCount sect.data - 1) (by omega)).2
      have next : ((props.getItemCount sect.data - 1 : ℕ) : ℤ) + 1 =
          props.getItemCount sect.data := by omega
      rw [next, rowItem_of_outside (.inr (Int.le_refl _))] at trailing
      exact trailing
  -- Headers and footers tell the same in any case; of a row the neighbours are in the data.
  · intro bounded k
    cases entry : (flatten props sections)[k]? with
    | none => rfl
    | some found =>
      cases found with
      | header s => rfl
      | footer s => rfl
      | row s r =>
        obtain ⟨sect, there, inSection, -⟩ := (flatten_row_iff k s r sections).mp entry
        have near := bounded sect (mem_of_getElem? there) (by omega)
        rw [Option.bind_some, Option.bind_some, reportedInfo, infoOf, there, Option.map_some,
          Option.map_some, rowItem_eq near (by omega), rowItem_eq near (by omega)]

/-! ### The visible index -/

theorem ensureItemAtIndexPathIsVisible_eq (r : ℤ) {s : ℕ} {sections : List (SectionBase Data Item)}
    (bound : s ≤ sections.length) :
    ensureItemAtIndexPathIsVisible props sections ⟨s, r⟩ = some
      (r + 1 + ((sections.take s).map fun before => props.length before.data + 2).sum) := by
  rw [ensureItemAtIndexPathIsVisible]
  induction s with
  | zero => simp
  | succ s ih =>
    have inBounds : s < sections.length := bound
    rw [range_succ, foldlM_append, ih (Nat.le_of_lt inBounds), take_add_one,
      getElem?_eq_getElem inBounds, map_append, sum_append]
    simp [inBounds, Int.add_assoc]

theorem sum_add_two (count : SectionBase Data Item → ℕ) (sections : List (SectionBase Data Item)) :
    (sections.map fun sect => count sect + 2).sum =
      (sections.map count).sum + 2 * sections.length := by
  induction sections with
  | nil => rfl
  | cons sect _ ih =>
    rw [map_cons, sum_cons, ih, map_cons, sum_cons, length_cons]
    omega

theorem visible_iff : (∀ s r sect, sections[s]? = some sect → r < props.getItemCount sect.data →
      ∀ k : ℕ, ensureItemAtIndexPathIsVisible props sections ⟨s, r⟩ = some (k : ℤ) ↔
        (flatten props sections)[k]? = some (.row s r)) ↔ LengthsCount props sections := by
  have index : ∀ {s sect} (r : ℕ), sections[s]? = some sect →
      ensureItemAtIndexPathIsVisible props sections ⟨s, r⟩ = some
        (((r + 1 + ((sections.take s).map fun before => props.length before.data + 2).sum : ℕ)) :
          ℤ) := by
    intro s sect r there
    obtain ⟨bound, -⟩ := List.getElem?_eq_some_iff.mp there
    rw [ensureItemAtIndexPathIsVisible_eq _ (Nat.le_of_lt bound)]
    rfl
  constructor
  · intro visible s sect there some
    have entry := (flatten_row_iff _ s 0 sections).mpr ⟨sect, there, some, rfl⟩
    have same := (index 0 there).symm.trans
      ((visible s 0 sect there some (entryCount props (sections.take s) + (0 + 1))).mpr entry)
    have numbers := Int.ofNat.inj (Option.some.inj same)
    rw [entryCount, sum_add_two, sum_add_two] at numbers
    omega
  · intro lengths s r sect there inSection k
    have sums := lengths s sect there (by omega)
    rw [index r there, flatten_row_iff, entryCount, sum_add_two, sum_add_two, sums, Option.some_inj,
      Int.natCast_inj]
    constructor
    · rintro rfl
      exact ⟨sect, there, inSection, by omega⟩
    · omega

/-- **The flattening.** All views agree if and only if a section has nothing next to its items and
the data blobs before each section with items are as long as there are items. -/
theorem agrees_iff (sections : List (SectionBase Data Item)) :
    Agrees props sections ↔ Bounded props sections ∧ LengthsCount props sections := by
  constructor
  · intro agrees
    exact ⟨(infos_iff sections).mp agrees.infos, (visible_iff sections).mp agrees.visible⟩
  · rintro ⟨bounded, lengths⟩
    obtain ⟨itemCount, stickyHeaderIndices⟩ := @computeState_eq Data Item props sections
    exact ⟨itemCount, stickyHeaderIndices, getItem_eq sections, (infos_iff sections).mpr bounded,
      (visible_iff sections).mpr lengths⟩

def twoColumns : SectionListProps (List ℕ) (ℕ × Option ℕ) where
  getItem data index := (at? data (2 * index)).map fun element => (element, at? data (2 * index + 1))
  getItemCount data := (data.length + 1) / 2
  keyExtractor _ index := toString index
  length := List.length

theorem twoColumns_not_agrees : ¬Agrees twoColumns [{ data := [1, 2] }, { data := [3, 4] }] := by
  intro agrees
  have visible := (agrees.visible 1 0 { data := [3, 4] } rfl (by decide) 4).mpr (by decide)
  exact absurd visible (by decide)

end VirtualizedSectionList

end ReactNative


