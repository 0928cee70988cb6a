import ReactNative.Core.RawPropsIndex
import ReactNative.Core.RawPropsParser

/-! A prepared parser has every key that was accessed once, and its index has their names. -/
namespace ReactNative

open List

namespace RawPropsKeyMap

variable {key : RawPropsKey} {keys : List RawPropsKey}

def itemOf (key : RawPropsKey) (value : UInt8) : Item where
  value := value
  length := UInt8.ofNat key.rendered.length
  name := key.rendered ++ replicate (kPropNameLengthHardCap - key.rendered.length) 0

def keyItems (keys : List RawPropsKey) : List Item :=
  keys.zipIdx.map fun indexed => itemOf indexed.1 (UInt8.ofNat indexed.2)

theorem insert_eq (map : RawPropsKeyMap) (fits : key.rendered.length < kPropNameLengthHardCap)
    (value : UInt8) :
    map.insert key value = some { map with items := map.items ++ [itemOf key value] } := by
  rw [insert, RawPropsKey.render, if_pos fits]
  rfl

section

variable (fits : key.rendered.length < kPropNameLengthHardCap) (value : UInt8)
include fits

theorem itemOf_length : (itemOf key value).length.toNat = key.rendered.length := by
  rw [kPropNameLengthHardCap] at fits
  rw [itemOf, UInt8.toNat_ofNat']
  omega

theorem itemOf_rendered : (itemOf key value).rendered = key.rendered := by
  rw [Item.rendered, itemOf_length fits, itemOf]
  simp

theorem itemOf_fits :
    (itemOf key value).Fits where
  short := by
    rw [itemOf_length fits]
    exact fits
  full := by rw [itemOf_rendered fits, itemOf_length fits]

end

theorem keyItems_append (keys : List RawPropsKey) (key : RawPropsKey) :
    keyItems (keys ++ [key]) = keyItems keys ++ [itemOf key (UInt8.ofNat keys.length)] := by
  simp [keyItems, zipIdx_append]

theorem mem_keyItems {item : Item} :
    item ∈ keyItems keys ↔ ∃ (i : ℕ) (key : RawPropsKey), keys[i]? = some key ∧
      item = itemOf key (UInt8.ofNat i) := by
  rw [keyItems, mem_map]
  constructor
  · rintro ⟨⟨key, i⟩, member, rfl⟩
    exact ⟨i, key, mem_zipIdx_iff_getElem?.mp member, rfl⟩
  · rintro ⟨i, key, there, rfl⟩
    exact ⟨(key, i), mem_zipIdx_iff_getElem?.mpr there, rfl⟩

theorem keyItems_fit (fits : ∀ key ∈ keys, key.rendered.length < kPropNameLengthHardCap) :
    ∀ item ∈ keyItems keys, item.Fits := by
  intro item member
  obtain ⟨i, key, there, rfl⟩ := mem_keyItems.mp member
  exact itemOf_fits (fits key (mem_of_getElem? there)) _

end RawPropsKeyMap

namespace RawPropsParser

open RawPropsKeyMap

variable {parser : RawPropsParser} {accessed : List RawPropsKey}

structure Collected (parser : RawPropsParser) : Prop where
  nodup : parser.keys.Nodup
  items : parser.nameToIndex.items = keyItems parser.keys

theorem Collected.collect (collected : Collected parser) {key : RawPropsKey}
    (fits : key.rendered.length < kPropNameLengthHardCap) :
    ∃ next, parser.collect key = some next ∧ Collected next ∧
      ∀ other, other ∈ next.keys ↔ other ∈ parser.keys ∨ other = key := by
  rw [RawPropsParser.collect]
  split
  next present =>
    refine ⟨parser, rfl, collected, ?_⟩
    intro other
    constructor
    · exact .inl
    · rintro (before | rfl)
      · exact before
      · exact present
  next absent =>
    rw [insert_eq parser.nameToIndex fits]
    refine ⟨_, rfl, ⟨?_, ?_⟩, by simp⟩
    · exact nodup_append.mpr ⟨collected.nodup, by simp, by
        intro other member last isKey same
        rw [mem_singleton.mp isKey] at same
        exact absent (same ▸ member)⟩
    · rw [keyItems_append, ← collected.items]

theorem Collected.collectAll (collected : Collected parser)
    (fits : ∀ key ∈ accessed, key.rendered.length < kPropNameLengthHardCap) :
    ∃ final, parser.collectAll accessed = some final ∧ Collected final ∧
      ∀ key, key ∈ final.keys ↔ key ∈ parser.keys ∨ key ∈ accessed := by
  induction accessed generalizing parser with
  | nil => exact ⟨parser, rfl, collected, by simp⟩
  | cons _ _ ih =>
    obtain ⟨fitsFirst, fitsRest⟩ := forall_mem_cons.mp fits
    obtain ⟨_, collects, collectedNext, keys⟩ := collected.collect fitsFirst
    obtain ⟨final, collectsRest, collectedFinal, finalKeys⟩ := ih collectedNext fitsRest
    refine ⟨final, ?_, collectedFinal, ?_⟩
    · rw [RawPropsParser.collectAll, collects]
      exact collectsRest
    · intro key
      rw [finalKeys, keys, mem_cons, or_assoc]

structure Prepared (parser : RawPropsParser) : Prop where
  nodup : parser.keys.Nodup
  fits : ∀ key ∈ parser.keys, key.rendered.length < kPropNameLengthHardCap
  few : parser.keys.length ≤ 255
  index : ∃ map : RawPropsKeyMap, map.items = keyItems parser.keys ∧
    parser.nameToIndex = map.reindex

theorem exists_prepare (fits : ∀ key ∈ accessed, key.rendered.length < kPropNameLengthHardCap)
    (few : accessed.dedup.length ≤ 255) :
    ∃ parser, prepare accessed = some parser ∧ Prepared parser ∧
      parser.keys.Perm accessed.dedup := by
  have start : Collected {} := ⟨nodup_nil, rfl⟩
  obtain ⟨final, collects, collected, keys⟩ := start.collectAll fits
  have members : ∀ key, key ∈ final.keys ↔ key ∈ accessed := by
    intro key
    rw [keys]
    simp
  have sameKeys : final.keys.Perm accessed.dedup := by
    rw [perm_ext_iff_of_nodup collected.nodup accessed.nodup_dedup]
    intro key
    rw [members, mem_dedup]
  refine ⟨{ final with nameToIndex := final.nameToIndex.reindex }, ?_, ?_, sameKeys⟩
  · rw [prepare, collects]
    rfl
  · exact ⟨collected.nodup, fun key member => fits key ((members key).mp member),
      sameKeys.length_eq ▸ few, final.nameToIndex, collected.items, rfl⟩

namespace Prepared

theorem indexed (prepared : Prepared parser) : Indexed parser.nameToIndex := by
  obtain ⟨_, items, index⟩ := prepared.index
  rw [index]
  apply indexed_reindex
  · rw [items]
    exact keyItems_fit prepared.fits
  · rw [items, keyItems, length_map, length_zipIdx]
    exact prepared.few

/-- **Names.** What is found is the index of a key whose name is as long as the length of the name
modulo 256, and has its first bytes. -/
theorem at_name (prepared : Prepared parser) {name : List Byte}
    (positive : 0 < name.length % 256) (cap : name.length % 256 < kPropNameLengthHardCap) :
    ∃ result, parser.nameToIndex.at_ name (UInt8.ofNat name.length) = some result ∧
      ((∃ (i : ℕ) (key : RawPropsKey), parser.keys[i]? = some key ∧
          key.rendered = name.take (name.length % 256) ∧ result = UInt8.ofNat i) ∨
        (∀ key ∈ parser.keys, key.rendered ≠ name.take (name.length % 256)) ∧
          result = kRawPropsValueIndexEmpty) := by
  -- The length passed is one byte: the map sees the first bytes of a longer name.
  have narrowed : (UInt8.ofNat name.length).toNat = name.length % 256 := UInt8.toNat_ofNat'
  have indexed := prepared.indexed
  obtain ⟨result, found, spec⟩ := indexed.at_spec name (narrowed ▸ positive) (narrowed ▸ cap)
  obtain ⟨map, items, index⟩ := prepared.index
  refine ⟨result, found, ?_⟩
  -- An item of the map comes from a key, and each key has its item.
  rcases spec with ⟨item, member, ⟨-, equal⟩, rfl⟩ | ⟨nothing, rfl⟩
  · rw [index] at member
    have inMap := mem_of_mem_sortedItems member
    rw [items] at inMap
    obtain ⟨i, key, there, rfl⟩ := mem_keyItems.mp inMap
    rw [itemOf_rendered (prepared.fits key (mem_of_getElem? there))] at equal
    exact .inl ⟨i, key, there, equal, rfl⟩
  · refine .inr ⟨?_, rfl⟩
    intro key member equal
    obtain ⟨i, there⟩ := mem_iff_getElem?.mp member
    have fits := prepared.fits key member
    have inMap : itemOf key (UInt8.ofNat i) ∈ map.items := by
      rw [items]
      exact mem_keyItems.mpr ⟨i, key, there, rfl⟩
    have allFit : ∀ item ∈ map.items, item.Fits := by
      rw [items]
      exact keyItems_fit prepared.fits
    obtain ⟨kept, keptMember, same⟩ := exists_sortedItems allFit inMap
    rw [itemOf_rendered fits, equal] at same
    -- A key with this name would have been found.
    refine nothing kept (by rw [index]; exact keptMember) ⟨?_, same⟩
    rw [← UInt8.toNat_inj, narrowed, ← (allFit kept (mem_of_mem_sortedItems keptMember)).full, same,
      length_take]
    exact Nat.min_eq_left (Nat.mod_le _ _)

theorem at_name_none (prepared : Prepared parser) {name : List Byte}
    (out : name.length % 256 = 0 ∨ kPropNameLengthHardCap ≤ name.length % 256) :
    parser.nameToIndex.at_ name (UInt8.ofNat name.length) = none := by
  have narrowed : (UInt8.ofNat name.length).toNat = name.length % 256 := UInt8.toNat_ofNat'
  exact prepared.indexed.at_none name (narrowed ▸ out)

end Prepared

end RawPropsParser

end ReactNative

