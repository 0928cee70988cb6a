import ReactNative.Foundation.BinarySearch
import Mathlib.Data.List.Destutter

/-! The names of the props of a component are kept sorted by length and then by bytes, and a table
has, for each length, the number of names up to that length. Lengths, indices and the entries of the
table are bytes. -/
namespace ReactNative

abbrev Byte := Fin 256

instance byteSize_ne_zero : NeZero 256 := ⟨by decide⟩

/-- A `char const *`, without the final zero. Equality is that of the pointers. -/
structure CString where
  address : ℕ
  chars : List Byte
  deriving DecidableEq

structure RawPropsKey where
  namePrefix : Option CString := none
  name : CString
  nameSuffix : Option CString := none
  deriving DecidableEq

def kPropNameLengthHardCap : ℕ := 64

/-- The special value for no value. -/
def kRawPropsValueIndexEmpty : UInt8 := 255

/-- The order of the first bytes. -/
def memcmp (lhs rhs : List Byte) (length : ℕ) : Ordering :=
  if lhs.take length < rhs.take length then .lt
  else if rhs.take length < lhs.take length then .gt else .eq

namespace RawPropsKey

def rendered (key : RawPropsKey) : List Byte :=
  (key.namePrefix.map CString.chars).getD [] ++ key.name.chars ++
    (key.nameSuffix.map CString.chars).getD []

def render (key : RawPropsKey) : Option (List Byte × UInt8) :=
  if key.rendered.length < kPropNameLengthHardCap then
    some (key.rendered, UInt8.ofNat key.rendered.length)
  else none

end RawPropsKey

namespace RawPropsKeyMap

structure Item where
  value : UInt8
  length : UInt8
  /-- A buffer, with zeros after the name. -/
  name : List Byte
  deriving DecidableEq

end RawPropsKeyMap

structure RawPropsKeyMap where
  items : List RawPropsKeyMap.Item := []
  buckets : List UInt8 := []

namespace RawPropsKeyMap

def hasSameName (lhs rhs : Item) : Bool :=
  lhs.length = rhs.length ∧ memcmp lhs.name rhs.name lhs.length.toNat = .eq

def shouldFirstOneBeBeforeSecondOne (lhs rhs : Item) : Bool :=
  if lhs.length ≠ rhs.length then lhs.length < rhs.length
  else memcmp lhs.name rhs.name rhs.length.toNat = .lt

variable (map : RawPropsKeyMap)

def insert (key : RawPropsKey) (value : UInt8) : Option RawPropsKeyMap :=
  key.render.map fun name =>
    let item : Item :=
      { value := value
        length := name.2
        name := name.1 ++ List.replicate (kPropNameLengthHardCap - name.1.length) 0 }
    { map with items := map.items ++ [item] }

def fillBuckets (buckets : List UInt8) (start stop index : ℕ) : List UInt8 :=
  (List.range' start (stop - start)).foldl (fun buckets j => buckets.set j (UInt8.ofNat index))
    buckets

/-- One round of the loop over the items, which are counted. -/
def reindexItem (state : List UInt8 × UInt8) (indexed : Item × ℕ) : List UInt8 × UInt8 :=
  if indexed.1.length ≠ state.2 then
    (fillBuckets state.1 state.2.toNat indexed.1.length.toNat indexed.2, indexed.1.length)
  else state

/-- Of the items with the same name, only the one that was inserted first stays. -/
def sortedItems (items : List Item) : List Item :=
  (items.insertionSort fun lhs rhs => !shouldFirstOneBeBeforeSecondOne rhs lhs).destutter
    fun lhs rhs => !hasSameName lhs rhs

def reindex : RawPropsKeyMap :=
  let items := sortedItems map.items
  let buckets := List.replicate kPropNameLengthHardCap 0
  let filled := items.zipIdx.foldl reindexItem (buckets, 0)
  { items := items
    buckets := fillBuckets filled.1 filled.2.toNat kPropNameLengthHardCap items.length }

def readAt {α : Type} (list : List α) (index : ℤ) : Option α :=
  if index < 0 then none else list[index.toNat]?

/-- Asserts that the length is positive and below the cap, as the buckets need. -/
def at_ (name : List Byte) (length : UInt8) : Option UInt8 :=
  (readAt map.buckets (length.toNat - 1)).bind fun lower =>
    (readAt map.buckets length.toNat).bind fun upper =>
      let probe (median : ℤ) := (readAt map.items median).map fun item =>
        memcmp item.name name length.toNat
      (BinarySearch.search probe (map.items.length + 2) lower.toNat (upper.toNat - 1)).bind
        fun found => match found with
          | some median => (readAt map.items median).map Item.value
          | none => some kRawPropsValueIndexEmpty

end RawPropsKeyMap

end ReactNative

