import ReactNative.Core.RawPropsPrepared

/-! A name that no key has is passed over as long as its length is positive and below the cap. -/
namespace ReactNative

namespace RawPropsParser

variable {V : Type} {parser : RawPropsParser} {accessed : List RawPropsKey} {name : List Byte}

/-- Whatever the loop has done before, the round for the name reads inside of the tables, and leaves
the indices as they are unless a key has the name. -/
def IgnoresUnknown (parser : RawPropsParser) (name : List Byte) (value : V) : Prop :=
  ∀ state : RawProps V × UInt8, state.1.keyIndexToValueIndex.length = parser.keys.length →
    ∃ next, parser.preparseProperty state (name, value) = some next ∧
      ((∀ key ∈ parser.keys, key.rendered ≠ name) →
        next.1.keyIndexToValueIndex = state.1.keyIndexToValueIndex)

/-- What the name is looked up as. -/
def narrowedName (name : List Byte) : List Byte := name.take (name.length % 256)

/-- The narrowed length is one that the table has, and a name that no key has is not looked up as one
that a key has. -/
def Harmless (accessed : List RawPropsKey) (name : List Byte) : Prop :=
  0 < name.length % 256 ∧ name.length % 256 < kPropNameLengthHardCap ∧
    ((∀ key ∈ accessed, key.rendered ≠ name) → ∀ key ∈ accessed, key.rendered ≠ narrowedName name)

theorem ofNat_ne_empty {i : ℕ} (few : i < 255) : UInt8.ofNat i ≠ kRawPropsValueIndexEmpty := by
  intro same
  have equal := congrArg UInt8.toNat same
  rw [UInt8.toNat_ofNat', kRawPropsValueIndexEmpty] at equal
  have : (255 : UInt8).toNat = 255 := rfl
  omega

namespace Prepared

theorem index_lt (prepared : Prepared parser) {i : ℕ} {key : RawPropsKey}
    (there : parser.keys[i]? = some key) : i < parser.keys.length ∧ i < 255 ∧
      (UInt8.ofNat i).toNat = i := by
  obtain ⟨inside, -⟩ := List.getElem?_eq_some_iff.mp there
  have few := prepared.few
  rw [UInt8.toNat_ofNat']
  omega

variable {state : RawProps V × UInt8} {value : V}

theorem preparseProperty_found (prepared : Prepared parser)
    (size : state.1.keyIndexToValueIndex.length = parser.keys.length) {i : ℕ} {key : RawPropsKey}
    (there : parser.keys[i]? = some key)
    (found : parser.nameToIndex.at_ name (UInt8.ofNat name.length) = some (UInt8.ofNat i)) :
    parser.preparseProperty state (name, value) = some
      ({ state.1 with
          keyIndexToValueIndex := state.1.keyIndexToValueIndex.set i state.2
          values := state.1.values ++ [value] },
        state.2 + 1) := by
  obtain ⟨inside, few, narrowed⟩ := prepared.index_lt there
  rw [preparseProperty, found, Option.bind_some, if_neg (ofNat_ne_empty few), narrowed, size,
    if_pos inside]

theorem preparseProperty_missing (missing : parser.nameToIndex.at_ name (UInt8.ofNat name.length) =
      some kRawPropsValueIndexEmpty) :
    parser.preparseProperty state (name, value) = some state := by
  rw [preparseProperty, missing, Option.bind_some, if_pos rfl]

theorem ignoresUnknown_of_harmless (prepared : Prepared parser) (value : V)
    (harmless : Harmless parser.keys name) : IgnoresUnknown parser name value := by
  obtain ⟨positive, cap, differs⟩ := harmless
  intro state size
  obtain ⟨-, found, ⟨i, key, there, equal, rfl⟩ | ⟨-, rfl⟩⟩ := prepared.at_name positive cap
  · refine ⟨_, prepared.preparseProperty_found size there found, ?_⟩
    intro unknown
    exact absurd equal (differs unknown key (List.mem_of_getElem? there))
  · exact ⟨state, preparseProperty_missing found, fun _ => rfl⟩

theorem harmless_of_ignoresUnknown (prepared : Prepared parser)
    (ignores : IgnoresUnknown parser name value) : Harmless parser.keys name := by
  have start : (List.replicate parser.keys.length kRawPropsValueIndexEmpty).length =
      parser.keys.length := List.length_replicate
  obtain ⟨next, steps, unchanged⟩ := ignores
    ({ keyIndexCursor := 0
       keyIndexToValueIndex := List.replicate parser.keys.length kRawPropsValueIndexEmpty }, 0) start
  by_cases inTable : 0 < name.length % 256 ∧ name.length % 256 < kPropNameLengthHardCap
  · refine ⟨inTable.1, inTable.2, ?_⟩
    intro unknown key member equal
    obtain ⟨-, found, ⟨i, other, there, -, rfl⟩ | ⟨nothing, -⟩⟩ :=
      prepared.at_name inTable.1 inTable.2
    · rw [prepared.preparseProperty_found start there found, Option.some_inj] at steps
      have same := congrArg (fun indices : List UInt8 => indices[i]?) (steps ▸ unchanged unknown)
      have inside := (prepared.index_lt there).1
      simp [inside, kRawPropsValueIndexEmpty] at same
    · exact nothing key member equal
  · have out : name.length % 256 = 0 ∨ kPropNameLengthHardCap ≤ name.length % 256 := by omega
    rw [preparseProperty, prepared.at_name_none out] at steps
    cases steps

end Prepared

theorem harmless_congr {other : List RawPropsKey} (same : ∀ key, key ∈ other ↔ key ∈ accessed) :
    Harmless other name ↔ Harmless accessed name := by
  simp only [Harmless, same]

/-- **Unknown names.** With a prepared index, a name of a property is harmless exactly under the
condition on its length. -/
theorem ignoresUnknown_iff (fits : ∀ key ∈ accessed, key.rendered.length < kPropNameLengthHardCap)
    (few : accessed.dedup.length ≤ 255) :
    ∃ parser, prepare accessed = some parser ∧ ∀ (name : List Byte) (value : V),
      IgnoresUnknown parser name value ↔ Harmless accessed name := by
  obtain ⟨parser, prepares, prepared, keys⟩ := exists_prepare fits few
  refine ⟨parser, prepares, ?_⟩
  intro name value
  have members : ∀ key, key ∈ parser.keys ↔ key ∈ accessed :=
    fun key => keys.mem_iff.trans List.mem_dedup
  rw [← harmless_congr members]
  exact ⟨prepared.harmless_of_ignoresUnknown, prepared.ignoresUnknown_of_harmless value⟩

def oneProp : List RawPropsKey := [{ name := { address := 1, chars := [97] } }]

theorem ignoresUnknown_iff_oneProp : ∃ parser, prepare oneProp = some parser ∧
    ∀ (name : List Byte) (value : ℕ), IgnoresUnknown parser name value ↔ Harmless oneProp name :=
  ignoresUnknown_iff (by decide) (by decide)

theorem emptyName_not_ignored : ∃ parser, prepare oneProp = some parser ∧
    ¬IgnoresUnknown parser [] 0 := by
  refine ⟨_, rfl, ?_⟩
  intro ignores
  obtain ⟨next, steps, -⟩ := ignores
    ({ keyIndexCursor := 0, keyIndexToValueIndex := [kRawPropsValueIndexEmpty] }, 0) rfl
  cases steps

end RawPropsParser

end ReactNative

