import ReactNative.Core.RawPropsKeyMap
import Mathlib.Data.Prod.Lex

/-! The items are sorted by length and name, so those of one length are between two buckets. -/
namespace ReactNative

open List

variable {length : ℕ} {lhs rhs : List Byte}

theorem memcmp_lt_iff : memcmp lhs rhs length = .lt ↔ lhs.take length < rhs.take length := by
  rw [memcmp]
  split
  next less => simp [less]
  next notLess => split <;> simp [notLess]

theorem memcmp_gt_iff : memcmp lhs rhs length = .gt ↔ rhs.take length < lhs.take length := by
  rw [memcmp]
  split
  next less => simp [less.le]
  next notLess => split <;> simp_all

theorem memcmp_eq_iff : memcmp lhs rhs length = .eq ↔ lhs.take length = rhs.take length := by
  rw [memcmp]
  split
  next less => simp [less.ne]
  next notLess =>
    split
    next greater => simp [greater.ne']
    next notGreater => simpa using le_antisymm (not_lt.mp notGreater) (not_lt.mp notLess)

namespace RawPropsKeyMap

variable {item lhs rhs : Item} {items : List Item}

namespace Item

def rendered (item : Item) : List Byte := item.name.take item.length.toNat

structure Fits (item : Item) : Prop where
  short : item.length.toNat < kPropNameLengthHardCap
  full : item.rendered.length = item.length.toNat

def sortKey (item : Item) : ℕ ×ₗ List Byte := toLex (item.length.toNat, item.rendered)

end Item

theorem hasSameName_iff (fitsLhs : lhs.Fits) (fitsRhs : rhs.Fits) :
    hasSameName lhs rhs ↔ lhs.rendered = rhs.rendered := by
  rw [hasSameName, decide_eq_true_eq, memcmp_eq_iff]
  constructor
  · rintro ⟨same, equal⟩
    rw [Item.rendered, Item.rendered, ← same]
    exact equal
  · intro equal
    have same : lhs.length = rhs.length := by
      rw [← UInt8.toNat_inj, ← fitsLhs.full, ← fitsRhs.full, equal]
    refine ⟨same, ?_⟩
    rw [Item.rendered, Item.rendered, ← same] at equal
    exact equal

theorem shouldFirstOneBeBeforeSecondOne_iff :
    shouldFirstOneBeBeforeSecondOne lhs rhs ↔ lhs.sortKey < rhs.sortKey := by
  rw [shouldFirstOneBeBeforeSecondOne, Item.sortKey, Item.sortKey, Prod.Lex.toLex_lt_toLex]
  by_cases same : lhs.length = rhs.length
  · simp [same, memcmp_lt_iff, Item.rendered]
  · have differ : lhs.length.toNat ≠ rhs.length.toNat := fun equal => same (UInt8.toNat_inj.mp equal)
    simp [same, differ, UInt8.lt_iff_toNat_lt]

/-! ### The sorted items -/

def NotAfter (lhs rhs : Item) : Prop := (!shouldFirstOneBeBeforeSecondOne rhs lhs) = true

theorem notAfter_iff : NotAfter lhs rhs ↔ lhs.sortKey ≤ rhs.sortKey := by
  rw [NotAfter, Bool.not_eq_true', ← Bool.not_eq_true, shouldFirstOneBeBeforeSecondOne_iff, not_lt]

instance : DecidableRel NotAfter := fun lhs rhs =>
  inferInstanceAs (Decidable ((!shouldFirstOneBeBeforeSecondOne rhs lhs) = true))

instance : Std.Total NotAfter where
  total lhs rhs := by
    rw [notAfter_iff, notAfter_iff]
    exact le_total _ _

instance : IsTrans Item NotAfter where
  trans first second third := by
    rw [notAfter_iff, notAfter_iff, notAfter_iff]
    exact le_trans

theorem sortedItems_sorted (items : List Item) :
    (sortedItems items).Pairwise fun lhs rhs => lhs.sortKey ≤ rhs.sortKey := by
  have sorted : (items.insertionSort NotAfter).Pairwise NotAfter :=
    pairwise_insertionSort NotAfter items
  have kept : (sortedItems items).Sublist (items.insertionSort NotAfter) := destutter_sublist _ _
  exact (sorted.sublist kept).imp fun before => notAfter_iff.mp before

theorem mem_of_mem_sortedItems (member : item ∈ sortedItems items) : item ∈ items :=
  (mem_insertionSort _).mp ((destutter_sublist _ _).subset member)

theorem exists_sameName_destutter' (first : Item) (fitsFirst : first.Fits)
    (fits : ∀ item ∈ items, item.Fits) (member : item ∈ first :: items) :
    ∃ kept ∈ items.destutter' (fun lhs rhs => !hasSameName lhs rhs) first,
      kept.rendered = item.rendered := by
  induction items generalizing first with
  | nil => exact ⟨first, by simp, by rw [mem_singleton.mp member]⟩
  | cons second rest ih =>
    obtain ⟨fitsSecond, fitsRest⟩ := forall_mem_cons.mp fits
    rw [destutter'_cons]
    split
    next differs =>
      rcases mem_cons.mp member with rfl | later
      · exact ⟨item, mem_cons_self, rfl⟩
      · obtain ⟨kept, keptMem, same⟩ := ih second fitsSecond fitsRest later
        exact ⟨kept, mem_cons_of_mem _ keptMem, same⟩
    next same =>
      have equal : first.rendered = second.rendered := by
        rw [← hasSameName_iff fitsFirst fitsSecond]
        simpa using same
      have keepsFirst : ∃ kept ∈ rest.destutter' (fun lhs rhs => !hasSameName lhs rhs) first,
          kept.rendered = first.rendered :=
        ⟨first, mem_destutter' _ _ _, rfl⟩
      rcases mem_cons.mp member with rfl | later
      · exact keepsFirst
      · rcases mem_cons.mp later with rfl | deeper
        · obtain ⟨kept, keptMem, keptSame⟩ := keepsFirst
          exact ⟨kept, keptMem, keptSame.trans equal⟩
        · exact ih first fitsFirst fitsRest (mem_cons_of_mem _ deeper)

theorem exists_sortedItems (fits : ∀ item ∈ items, item.Fits) (member : item ∈ items) :
    ∃ kept ∈ sortedItems items, kept.rendered = item.rendered := by
  have sorted : item ∈ items.insertionSort NotAfter := (mem_insertionSort _).mpr member
  have fitsSorted : ∀ item ∈ items.insertionSort NotAfter, item.Fits :=
    fun item inside => fits item ((mem_insertionSort _).mp inside)
  have unfolded : sortedItems items = (items.insertionSort NotAfter).destutter
    fun lhs rhs => !hasSameName lhs rhs := rfl
  rw [unfolded]
  cases list : items.insertionSort NotAfter with
  | nil => simp [list] at sorted
  | cons first =>
    rw [list] at sorted fitsSorted
    obtain ⟨fitsFirst, fitsRest⟩ := forall_mem_cons.mp fitsSorted
    exact exists_sameName_destutter' first fitsFirst fitsRest sorted

/-! ### The buckets -/

theorem length_fillBuckets (buckets : List UInt8) (start stop index : ℕ) :
    (fillBuckets buckets start stop index).length = buckets.length := by
  rw [fillBuckets]
  induction stop - start generalizing buckets start with
  | zero => rfl
  | succ _ ih =>
    rw [range'_succ, foldl_cons, ih, length_set]

theorem getElem?_fillBuckets (buckets : List UInt8) (start stop index j : ℕ)
    (inside : j < buckets.length) :
    (fillBuckets buckets start stop index)[j]? =
      if start ≤ j ∧ j < stop then some (UInt8.ofNat index) else buckets[j]? := by
  have filled : ∀ count start (buckets : List UInt8), j < buckets.length →
      ((range' start count).foldl (fun buckets j => buckets.set j (UInt8.ofNat index))
        buckets)[j]? =
        if start ≤ j ∧ j < start + count then some (UInt8.ofNat index) else buckets[j]? := by
    intro count
    induction count with
    | zero =>
      intro start buckets _
      rw [if_neg (by omega)]
      rfl
    | succ count ih =>
      intro start buckets inside
      rw [range'_succ, foldl_cons, ih (start + 1) _ (by rwa [length_set])]
      by_cases later : start + 1 ≤ j ∧ j < start + 1 + count
      · rw [if_pos later, if_pos (by omega)]
      · rw [if_neg later, getElem?_set]
        by_cases here : start = j
        · rw [if_pos here, if_pos (by omega), if_pos (by omega)]
        · rw [if_neg here, if_neg (by omega)]
  rw [fillBuckets, filled _ start buckets inside]
  by_cases range : start ≤ j ∧ j < stop
  · rw [if_pos range, if_pos (by omega)]
  · rw [if_neg range, if_neg (by omega)]

def countUpTo (items : List Item) (length : ℕ) : ℕ :=
  items.countP fun item => item.length.toNat ≤ length

structure Filled (items : List Item) (buckets : List UInt8) (length : ℕ) : Prop where
  size : buckets.length = kPropNameLengthHardCap
  counts : ∀ j < length, buckets[j]? = some (UInt8.ofNat (countUpTo items j))

variable {done rest : List Item}

theorem countUpTo_append {j : ℕ}
    (short : ∀ item ∈ done, item.length.toNat ≤ j) (long : ∀ item ∈ rest, j < item.length.toNat) :
    countUpTo (done ++ rest) j = done.length := by
  rw [countUpTo, countP_append, countP_eq_length.mpr (by simpa using short),
    countP_eq_zero.mpr (by simpa using long), Nat.add_zero]

variable {buckets : List UInt8}

theorem Filled.fill {length stop : ℕ}
    (filled : Filled (done ++ rest) buckets length) (cap : stop ≤ kPropNameLengthHardCap)
    (short : ∀ item ∈ done, item.length.toNat ≤ length)
    (long : ∀ item ∈ rest, stop ≤ item.length.toNat) :
    Filled (done ++ rest) (fillBuckets buckets length stop done.length) stop where
  size := by rw [length_fillBuckets, filled.size]
  counts j below := by
    rw [getElem?_fillBuckets _ _ _ _ _ (by rw [filled.size]; omega)]
    split
    next range =>
      rw [countUpTo_append (fun item member => (short item member).trans range.1)
        fun item member => Nat.lt_of_lt_of_le range.2 (long item member)]
    next before => exact filled.counts j (by omega)

variable {length : UInt8}

theorem filled_reindexItem (filled : Filled (done ++ item :: rest) buckets length.toNat)
    (cap : item.length.toNat < kPropNameLengthHardCap)
    (short : ∀ other ∈ done, other.length.toNat ≤ length.toNat)
    (long : ∀ other ∈ item :: rest, item.length.toNat ≤ other.length.toNat) :
    (reindexItem (buckets, length) (item, done.length)).2 = item.length ∧
      Filled (done ++ item :: rest) (reindexItem (buckets, length) (item, done.length)).1
        item.length.toNat := by
  rw [reindexItem]
  split
  next => exact ⟨rfl, filled.fill cap.le short long⟩
  next same =>
    have equal : item.length = length := by simpa using same
    rw [equal]
    exact ⟨rfl, filled⟩

theorem filled_foldl (filled : Filled (done ++ rest) buckets length.toNat)
    (cap : ∀ item ∈ rest, item.length.toNat < kPropNameLengthHardCap)
    (sorted : rest.Pairwise fun lhs rhs => lhs.length.toNat ≤ rhs.length.toNat)
    (short : ∀ item ∈ done, item.length.toNat ≤ length.toNat)
    (long : ∀ item ∈ rest, length.toNat ≤ item.length.toNat) :
    Filled (done ++ rest) ((rest.zipIdx done.length).foldl reindexItem (buckets, length)).1
        ((rest.zipIdx done.length).foldl reindexItem (buckets, length)).2.toNat ∧
      ∀ item ∈ done ++ rest, item.length.toNat ≤
        ((rest.zipIdx done.length).foldl reindexItem (buckets, length)).2.toNat := by
  induction rest generalizing done buckets length with
  | nil =>
    rw [append_nil] at filled ⊢
    exact ⟨filled, short⟩
  | cons item rest ih =>
    obtain ⟨notShorter, -⟩ := forall_mem_cons.mp long
    obtain ⟨capItem, capRest⟩ := forall_mem_cons.mp cap
    obtain ⟨least, sortedRest⟩ := pairwise_cons.mp sorted
    obtain ⟨newLength, filledItem⟩ := filled_reindexItem filled capItem short
      (forall_mem_cons.mpr ⟨le_rfl, least⟩)
    have split : done ++ item :: rest = (done ++ [item]) ++ rest := by simp
    have position : done.length + 1 = (done ++ [item]).length := by simp
    rw [← newLength] at filledItem least
    rw [zipIdx_cons, foldl_cons, split, position]
    rw [split] at filledItem
    apply ih filledItem capRest sortedRest
    · intro other member
      rw [newLength]
      rcases mem_append.mp member with before | here
      · exact (short other before).trans notShorter
      · rw [mem_singleton.mp here]
    · exact least

theorem lengths_sorted_of_sortKeys (sorted : items.Pairwise fun lhs rhs => lhs.sortKey ≤ rhs.sortKey) :
    items.Pairwise fun lhs rhs => lhs.length.toNat ≤ rhs.length.toNat := by
  refine sorted.imp ?_
  intro lhs rhs before
  rcases Prod.Lex.toLex_le_toLex.mp before with shorter | same
  · exact shorter.le
  · exact same.1.le

theorem filled_reindex (map : RawPropsKeyMap) (fits : ∀ item ∈ map.items, item.Fits) :
    Filled map.reindex.items map.reindex.buckets kPropNameLengthHardCap := by
  have cap : ∀ item ∈ sortedItems map.items, item.length.toNat < kPropNameLengthHardCap :=
    fun item member => (fits item (mem_of_mem_sortedItems member)).short
  have sorted := lengths_sorted_of_sortKeys (sortedItems_sorted map.items)
  have start : Filled ([] ++ sortedItems map.items) (replicate kPropNameLengthHardCap 0)
      (0 : UInt8).toNat := ⟨length_replicate, by simp⟩
  obtain ⟨filled, short⟩ := filled_foldl start cap sorted (by simp) (by simp)
  rw [nil_append, ← append_nil (sortedItems map.items)] at filled
  have ends := filled.fill le_rfl (by simpa using short) (by simp)
  simpa [reindex] using ends

/-! ### The search -/

theorem readAt_natCast {α : Type} (list : List α) (index : ℕ) : readAt list index = list[index]? := by
  rw [readAt, if_neg (by omega), Int.toNat_natCast]

structure Indexed (map : RawPropsKeyMap) : Prop where
  fits : ∀ item ∈ map.items, item.Fits
  sorted : map.items.Pairwise fun lhs rhs => lhs.sortKey ≤ rhs.sortKey
  filled : Filled map.items map.buckets kPropNameLengthHardCap
  few : map.items.length ≤ 255

variable {map : RawPropsKeyMap}

theorem indexed_reindex (fits : ∀ item ∈ map.items, item.Fits) (few : map.items.length ≤ 255) :
    Indexed map.reindex where
  fits item member := fits item (mem_of_mem_sortedItems member)
  sorted := sortedItems_sorted map.items
  filled := filled_reindex map fits
  few := by
    have kept := (destutter_sublist (fun lhs rhs => !hasSameName lhs rhs)
      (map.items.insertionSort NotAfter)).length_le
    rw [length_insertionSort] at kept
    exact kept.trans few

namespace Indexed

variable {map : RawPropsKeyMap}

theorem bucket (indexed : Indexed map) {length : ℕ} (cap : length < kPropNameLengthHardCap) :
    ∃ bucket, map.buckets[length]? = some bucket ∧ bucket.toNat = countUpTo map.items length := by
  refine ⟨_, indexed.filled.counts length cap, ?_⟩
  have few := indexed.few
  have bound : countUpTo map.items length ≤ map.items.length := countP_le_length
  rw [UInt8.toNat_ofNat']
  omega

theorem between_iff (indexed : Indexed map) {length i : ℕ} (positive : 0 < length)
    (there : map.items[i]? = some item) :
    countUpTo map.items (length - 1) ≤ i ∧ i < countUpTo map.items length ↔
      item.length.toNat = length := by
  have lengths := lengths_sorted_of_sortKeys indexed.sorted
  have upTo := BinarySearch.lt_countP_iff lengths length there
  have shorter := BinarySearch.lt_countP_iff lengths (length - 1) there
  rw [countUpTo, countUpTo, upTo, ← not_lt, shorter]
  omega

end Indexed

def orderAt (map : RawPropsKeyMap) (name : List Byte) (length : UInt8) (i : ℤ) : Ordering :=
  ((readAt map.items i).map fun item => memcmp item.name name length.toNat).getD .eq

theorem orderAt_eq {name : List Byte} {i : ℕ} (there : map.items[i]? = some item) :
    orderAt map name length i = memcmp item.name name length.toNat := by
  rw [orderAt, readAt_natCast, there]
  rfl

theorem Indexed.rises (indexed : Indexed map) (name : List Byte) (positive : 0 < length.toNat) :
    BinarySearch.Rises
      (fun median => (readAt map.items median).map fun item =>
        memcmp item.name name length.toNat)
      (orderAt map name length) (countUpTo map.items (length.toNat - 1))
      (countUpTo map.items length.toNat - 1) := by
  -- Between the bounds stand exactly the names of this length.
  have read : ∀ i : ℤ, (countUpTo map.items (length.toNat - 1) : ℤ) ≤ i →
      i ≤ (countUpTo map.items length.toNat : ℤ) - 1 →
      ∃ (position : ℕ) (item : Item), i = position ∧ map.items[position]? = some item ∧
        item.length = length := by
    intro i inLower inUpper
    have bound : countUpTo map.items length.toNat ≤ map.items.length := countP_le_length
    have inside : i.toNat < map.items.length := by omega
    have there := getElem?_eq_getElem inside
    refine ⟨i.toNat, map.items[i.toNat], by omega, there, ?_⟩
    rw [← UInt8.toNat_inj]
    exact (indexed.between_iff positive there).mp ⟨by omega, by omega⟩
  -- Of one length, the sorted items rise by their bytes.
  have ordered : ∀ i j : ℤ, (countUpTo map.items (length.toNat - 1) : ℤ) ≤ i → i < j →
      j ≤ (countUpTo map.items length.toNat : ℤ) - 1 →
      ∃ first second : Item, orderAt map name length i = memcmp first.name name length.toNat ∧
        orderAt map name length j = memcmp second.name name length.toNat ∧
        first.name.take length.toNat ≤ second.name.take length.toNat := by
    intro i j inLower ahead inUpper
    obtain ⟨p, first, rfl, firstThere, firstLength⟩ := read i inLower (by omega)
    obtain ⟨q, second, rfl, secondThere, secondLength⟩ := read j (by omega) inUpper
    refine ⟨first, second, orderAt_eq firstThere, orderAt_eq secondThere, ?_⟩
    obtain ⟨firstInside, rfl⟩ := List.getElem?_eq_some_iff.mp firstThere
    obtain ⟨secondInside, rfl⟩ := List.getElem?_eq_some_iff.mp secondThere
    have before := pairwise_iff_getElem.mp indexed.sorted p q firstInside secondInside
      (by omega)
    rcases Prod.Lex.toLex_le_toLex.mp before with shorter | same
    · simp only [firstLength, secondLength] at shorter
      omega
    · simpa [Item.rendered, firstLength, secondLength] using same.2
  -- Every read succeeds, and `memcmp` follows the order of the names read.
  constructor
  · intro i inLower inUpper
    obtain ⟨position, item, rfl, there, -⟩ := read i inLower inUpper
    rw [orderAt_eq there, readAt_natCast, there]
    rfl
  · intro i j inLower ahead inUpper answer
    obtain ⟨first, second, firstOrder, secondOrder, rises⟩ := ordered i j inLower ahead inUpper
    rw [secondOrder, memcmp_lt_iff] at answer
    rw [firstOrder, memcmp_lt_iff]
    exact lt_of_le_of_lt rises answer
  · intro i j inLower ahead inUpper answer
    obtain ⟨first, second, firstOrder, secondOrder, rises⟩ := ordered i j inLower ahead inUpper
    rw [firstOrder, memcmp_gt_iff] at answer
    rw [secondOrder, memcmp_gt_iff]
    exact lt_of_lt_of_le answer rises

/-- An item with the length and the first bytes of the name. -/
def Matches (item : Item) (name : List Byte) (length : UInt8) : Prop :=
  item.length = length ∧ item.rendered = name.take length.toNat

theorem orderAt_eq_iff {name : List Byte} {i : ℕ} (there : map.items[i]? = some item)
    (same : item.length = length) : orderAt map name length i = .eq ↔ Matches item name length := by
  rw [orderAt_eq there, memcmp_eq_iff, Matches, Item.rendered, same]
  simp

/-- **The index.** The search ends, with the value of an item that matches if there is one. -/
theorem Indexed.at_spec (indexed : Indexed map) (name : List Byte) (positive : 0 < length.toNat)
    (cap : length.toNat < kPropNameLengthHardCap) :
    ∃ result, map.at_ name length = some result ∧
      ((∃ item ∈ map.items, Matches item name length ∧ result = item.value) ∨
        (∀ item ∈ map.items, ¬Matches item name length) ∧ result = kRawPropsValueIndexEmpty) := by
  obtain ⟨lower, lowerRead, lowerCount⟩ :=
    indexed.bucket (Nat.lt_of_le_of_lt (Nat.sub_le length.toNat 1) cap)
  obtain ⟨upper, upperRead, upperCount⟩ := indexed.bucket cap
  have bound : countUpTo map.items length.toNat ≤ map.items.length := countP_le_length
  have enough : ((countUpTo map.items length.toNat : ℤ) - 1 -
      countUpTo map.items (length.toNat - 1) + 1).toNat < map.items.length + 2 := by omega
  obtain ⟨found, searched, finds⟩ := BinarySearch.search_finds (indexed.rises name positive) enough
  have before : (length.toNat : ℤ) - 1 = (length.toNat - 1 : ℕ) := by omega
  rw [at_, before, readAt_natCast, readAt_natCast, lowerRead, upperRead]
  simp only [Option.bind_some, lowerCount, upperCount, searched]
  cases found with
  | some median =>
    obtain ⟨inLower, inUpper, equal⟩ := finds
    obtain ⟨position, rfl⟩ : ∃ position : ℕ, median = position := ⟨median.toNat, by omega⟩
    have inside : position < map.items.length := by omega
    have there := getElem?_eq_getElem inside
    have same := UInt8.toNat_inj.mp
      ((indexed.between_iff positive there).mp ⟨by omega, by omega⟩)
    refine ⟨map.items[position].value, ?_, .inl ⟨_, getElem_mem inside,
      (orderAt_eq_iff there same).mp equal, rfl⟩⟩
    simp only [readAt_natCast, there, Option.map_some]
  | none =>
    refine ⟨_, rfl, .inr ⟨?_, rfl⟩⟩
    rintro item member ⟨same, equal⟩
    obtain ⟨i, inside, rfl⟩ := mem_iff_getElem.mp member
    have there := getElem?_eq_getElem inside
    have range := (indexed.between_iff positive there).mpr (by rw [same])
    exact finds i (by omega) (by omega) ((orderAt_eq_iff there same).mpr ⟨same, equal⟩)

theorem Indexed.at_none (indexed : Indexed map) (name : List Byte)
    (out : length.toNat = 0 ∨ kPropNameLengthHardCap ≤ length.toNat) :
    map.at_ name length = none := by
  rcases out with zero | long
  · have negative : readAt map.buckets ((length.toNat : ℤ) - 1) = none := by
      rw [zero, readAt, if_pos (by omega)]
    rw [at_, negative, Option.bind_none]
  · have outside : readAt map.buckets length.toNat = none := by
      rw [readAt_natCast, getElem?_eq_none (by rw [indexed.filled.size]; exact long)]
    rw [at_, outside]
    simp

end RawPropsKeyMap

end ReactNative

