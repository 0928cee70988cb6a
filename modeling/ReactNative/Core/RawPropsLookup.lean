import ReactNative.Core.RawPropsNames
import Mathlib.Data.List.Perm.Subperm

/-! Preparsing leaves, for each key, the index of the value of the property with its name. Wherever
the cursor is, it gets to a key within one round, so each lookup answers for itself. -/
namespace ReactNative

namespace RawPropsParser

open RawPropsKeyMap List Option

variable {V : Type} {parser : RawPropsParser} {accessed : List RawPropsKey}

variable (keys : List RawPropsKey)

/-- Names that are not cut off, which no two keys have. -/
structure Named : Prop where
  fits : ∀ key ∈ keys, key.rendered.length < kPropNameLengthHardCap
  distinct : ∀ first ∈ keys, ∀ second ∈ keys, first.rendered = second.rendered → first = second

def ShortName (name : List Byte) : Prop := 0 < name.length ∧ name.length < kPropNameLengthHardCap

variable (properties : List (List Byte × V))

def known : List (List Byte × V) :=
  properties.filter fun property => ∃ key ∈ keys, key.rendered = property.1

def valueIndexOf (key : RawPropsKey) : UInt8 :=
  (((known keys properties).findIdx? fun property => property.1 = key.rendered).map
    UInt8.ofNat).getD kRawPropsValueIndexEmpty

structure Parsed (parser : RawPropsParser) (properties : List (List Byte × V))
    (state : RawProps V × UInt8) : Prop where
  values : state.1.values = (known parser.keys properties).map Prod.snd
  valueIndex : state.2 = UInt8.ofNat state.1.values.length
  indices : state.1.keyIndexToValueIndex = parser.keys.map (valueIndexOf parser.keys properties)

theorem length_known_le {properties : List (List Byte × V)}
    (distinct : (properties.map Prod.fst).Nodup) :
    (known keys properties).length ≤ keys.length := by
  have nodup : ((known keys properties).map Prod.fst).Nodup :=
    distinct.sublist (filter_sublist.map Prod.fst)
  have within : (known keys properties).map Prod.fst ⊆ keys.map RawPropsKey.rendered := by
    intro name member
    obtain ⟨_, kept, rfl⟩ := mem_map.mp member
    obtain ⟨key, keyMem, same⟩ := of_decide_eq_true (mem_filter.mp kept).2
    exact mem_map.mpr ⟨key, keyMem, same⟩
  have bound := (subperm_of_subset nodup within).length_le
  rwa [length_map, length_map] at bound

theorem known_append (first second : List (List Byte × V)) :
    known keys (first ++ second) = known keys first ++ known keys second :=
  filter_append ..

theorem valueIndexOf_append
    (property : List Byte × V) (key : RawPropsKey) (differs : property.1 ≠ key.rendered) :
    valueIndexOf keys (properties ++ [property]) key = valueIndexOf keys properties key := by
  have missing : (known keys [property]).findIdx? (fun other => other.1 = key.rendered) = none := by
    rw [findIdx?_eq_none_iff]
    intro other member
    rw [mem_singleton.mp (filter_subset_self _ member)]
    simpa using differs
  rw [valueIndexOf, valueIndexOf, known_append, findIdx?_append, missing]
  simp

variable {key : RawPropsKey}

theorem valueIndexOf_new {keys : List RawPropsKey} {properties : List (List Byte × V)}
    {property : List Byte × V} (member : key ∈ keys) (same : key.rendered = property.1)
    (absent : property.1 ∉ properties.map Prod.fst) :
    valueIndexOf keys (properties ++ [property]) key =
      UInt8.ofNat (known keys properties).length := by
  have before : (known keys properties).findIdx? (fun other => other.1 = key.rendered) = none := by
    rw [findIdx?_eq_none_iff]
    intro other kept
    have differs : other.1 ≠ property.1 :=
      ne_of_mem_of_not_mem (mem_map_of_mem (filter_subset_self _ kept)) absent
    simpa [same] using differs
  have here : known keys [property] = [property] :=
    filter_eq_self.mpr (by simpa using ⟨key, member, same⟩)
  rw [valueIndexOf, known_append, findIdx?_append, before, here]
  simp [same]

namespace Prepared

theorem at_shortName (prepared : Prepared parser) {name : List Byte} (short : ShortName name) :
    (∃ (i : ℕ) (key : RawPropsKey), parser.keys[i]? = some key ∧ key.rendered = name ∧
        parser.nameToIndex.at_ name (UInt8.ofNat name.length) = some (UInt8.ofNat i)) ∨
      (∀ key ∈ parser.keys, key.rendered ≠ name) ∧
        parser.nameToIndex.at_ name (UInt8.ofNat name.length) = some kRawPropsValueIndexEmpty := by
  have cap := short.2
  rw [kPropNameLengthHardCap] at cap
  have whole : name.length % 256 = name.length := by omega
  obtain ⟨result, found, spec⟩ := prepared.at_name (by rw [whole]; exact short.1)
    (by rw [whole]; exact short.2)
  rw [whole, take_length] at spec
  rcases spec with ⟨i, key, there, same, rfl⟩ | ⟨nothing, rfl⟩
  · exact .inl ⟨i, key, there, same, found⟩
  · exact .inr ⟨nothing, found⟩

theorem parsed_preparseProperty (prepared : Prepared parser) (named : Named parser.keys)
    {properties : List (List Byte × V)} {state : RawProps V × UInt8}
    (parsed : Parsed parser properties state) {property : List Byte × V}
    (short : ShortName property.1) (absent : property.1 ∉ properties.map Prod.fst) :
    ∃ next, parser.preparseProperty state property = some next ∧
      Parsed parser (properties ++ [property]) next ∧
      next.1.keyIndexCursor = state.1.keyIndexCursor := by
  have size : state.1.keyIndexToValueIndex.length = parser.keys.length := by
    rw [parsed.indices, length_map]
  -- A known name is put at its key's index; an unknown one changes nothing.
  rcases prepared.at_shortName short with ⟨i, key, there, same, found⟩ | ⟨unknown, missing⟩
  · have member := mem_of_getElem? there
    have here : known parser.keys [property] = [property] :=
      filter_eq_self.mpr (by simpa using ⟨key, member, same⟩)
    refine ⟨_, prepared.preparseProperty_found size there found, ⟨?_, ?_, ?_⟩, rfl⟩
    · rw [known_append, here, map_append, ← parsed.values]
      rfl
    · rw [parsed.valueIndex]
      simp
    · apply ext_getElem?
      intro j
      simp only [parsed.indices, parsed.valueIndex, getElem?_set, getElem?_map, length_map]
      split
      next isKey =>
        rw [← isKey, there, if_pos (prepared.index_lt there).1, map_some,
          valueIndexOf_new member same absent, parsed.values, length_map]
      next otherKey =>
        -- Another key has another name, and keeps the index it had.
        cases otherThere : parser.keys[j]? with
        | none => rfl
        | some other =>
          have differs : property.1 ≠ other.rendered := by
            intro equal
            have isKey := named.distinct key member other (mem_of_getElem? otherThere)
              (same.trans equal)
            rw [isKey] at there
            exact otherKey ((getElem?_inj (prepared.index_lt there).1 prepared.nodup).mp
              (there.trans otherThere.symm))
          rw [map_some, map_some, valueIndexOf_append _ _ _ _ differs]
  · have nothing : known parser.keys [property] = [] := by
      rw [known, filter_eq_nil_iff]
      simpa using unknown
    refine ⟨state, preparseProperty_missing missing, ⟨?_, parsed.valueIndex, ?_⟩, rfl⟩
    · rw [known_append, nothing, append_nil]
      exact parsed.values
    · rw [parsed.indices]
      apply map_congr_left
      intro key member
      rw [valueIndexOf_append]
      exact (unknown key member).symm

theorem parsed_preparseProperties (prepared : Prepared parser) (named : Named parser.keys)
    {done rest : List (List Byte × V)} {state : RawProps V × UInt8}
    (parsed : Parsed parser done state) (short : ∀ property ∈ rest, ShortName property.1)
    (distinct : ((done ++ rest).map Prod.fst).Nodup) :
    ∃ final, parser.preparseProperties state rest = some final ∧
      Parsed parser (done ++ rest) final ∧ final.1.keyIndexCursor = state.1.keyIndexCursor := by
  induction rest generalizing done state with
  | nil => exact ⟨state, rfl, by rwa [append_nil], rfl⟩
  | cons property rest ih =>
    obtain ⟨shortHere, shortRest⟩ := forall_mem_cons.mp short
    have absent : property.1 ∉ done.map Prod.fst := by
      rw [map_append, nodup_append] at distinct
      intro member
      exact distinct.2.2 _ member _ (by simp) rfl
    obtain ⟨_, steps, parsedNext, cursor⟩ :=
      prepared.parsed_preparseProperty named parsed shortHere absent
    have split : done ++ property :: rest = (done ++ [property]) ++ rest := by simp
    rw [split] at distinct ⊢
    obtain ⟨final, stepsRest, parsedFinal, cursorFinal⟩ := ih parsedNext shortRest distinct
    refine ⟨final, ?_, parsedFinal, cursorFinal.trans cursor⟩
    rw [preparseProperties, steps]
    exact stepsRest

end Prepared

/-! ### The cursor -/

variable {debug resetLoop : Bool} {fuel next : ℕ}

theorem seek_next {other : RawPropsKey} (there : parser.keys[next]? = some other)
    (differs : other ≠ key) :
    parser.seek debug key (fuel + 1) (next - 1) resetLoop =
      parser.seek debug key fuel next resetLoop := by
  obtain ⟨inside, -⟩ := List.getElem?_eq_some_iff.mp there
  have stays : ¬parser.keys.length ≤ next := Nat.not_le.mpr inside
  rw [seek]
  simp [stays, sub_add_cancel, readAt_natCast, there, differs]

theorem seek_here (there : parser.keys[next]? = some key) :
    parser.seek debug key (fuel + 1) (next - 1) resetLoop = some ((next : ℤ), true) := by
  obtain ⟨inside, -⟩ := List.getElem?_eq_some_iff.mp there
  have stays : ¬parser.keys.length ≤ next := Nat.not_le.mpr inside
  rw [seek]
  simp [stays, sub_add_cancel, readAt_natCast, there]

variable {i : ℕ}

theorem seek_elsewhere (nodup : parser.keys.Nodup) (there : parser.keys[i]? = some key)
    (inKeys : next < parser.keys.length) (elsewhere : next ≠ i) :
    parser.seek debug key (fuel + 1) (next - 1) resetLoop =
      parser.seek debug key fuel next resetLoop := by
  have nextThere := getElem?_eq_getElem inKeys
  apply seek_next nextThere
  intro same
  rw [same] at nextThere
  exact elsewhere ((getElem?_inj inKeys nodup).mp (nextThere.trans there.symm))

theorem seek_ahead (nodup : parser.keys.Nodup) (there : parser.keys[i]? = some key)
    (ahead : next ≤ i) (enough : i < next + fuel) :
    parser.seek debug key fuel (next - 1) resetLoop = some ((i : ℤ), true) := by
  obtain ⟨inside, -⟩ := List.getElem?_eq_some_iff.mp there
  induction fuel generalizing next with
  | zero => omega
  | succ fuel ih =>
    by_cases here : next = i
    · rw [here]
      exact seek_here there
    · rw [seek_elsewhere nodup there (by omega) here]
      have later := ih (show next + 1 ≤ i by omega) (by omega)
      rwa [Nat.cast_succ, add_sub_cancel_right] at later

theorem seek_reset (some_key : parser.keys ≠ []) :
    parser.seek debug key (fuel + 1) (parser.keys.length - 1) false =
      parser.seek debug key (fuel + 1) (-1) true := by
  simp [seek, some_key]

section

variable (nodup : parser.keys.Nodup) (there : parser.keys[i]? = some key)
  (inKeys : next ≤ parser.keys.length)
include nodup there inKeys

/-- **The cursor.** From wherever the cursor is, a key is reached within one round. -/
theorem seek_eq (enough : parser.keys.length + i < next + fuel) :
    parser.seek debug key fuel (next - 1) false = some ((i : ℤ), true) := by
  obtain ⟨inside, -⟩ := List.getElem?_eq_some_iff.mp there
  induction fuel generalizing next with
  | zero => omega
  | succ fuel ih =>
    by_cases atEnd : next = parser.keys.length
    · have some_key : parser.keys ≠ [] := ne_nil_of_length_pos (by omega)
      rw [atEnd, seek_reset some_key]
      exact seek_ahead nodup there (Nat.zero_le i) (by omega)
    · by_cases here : next = i
      · rw [here]
        exact seek_here there
      · rw [seek_elsewhere nodup there (by omega) here]
        have later := ih (show next + 1 ≤ parser.keys.length by omega) (by omega)
        rwa [Nat.cast_succ, add_sub_cancel_right] at later

theorem seek_of_cursor (enough : parser.keys.length ≤ fuel) :
    parser.seek debug key fuel (next - 1) false = some ((i : ℤ), true) := by
  obtain ⟨inside, -⟩ := List.getElem?_eq_some_iff.mp there
  by_cases ahead : next ≤ i
  · exact seek_ahead nodup there ahead (by omega)
  · exact seek_eq nodup there inKeys (by omega)

end

/-! ### The answers -/

/-- The value of the property with the name. -/
def getProperty (properties : List (List Byte × V)) (name : List Byte) : Option V :=
  (properties.find? fun property => property.1 = name).map Prod.snd

theorem find?_known {keys : List RawPropsKey} {properties : List (List Byte × V)}
    (member : key ∈ keys) :
    (known keys properties).find? (fun property => property.1 = key.rendered) =
      properties.find? fun property => property.1 = key.rendered := by
  rw [known, find?_filter]
  congr 1
  funext property
  by_cases same : property.1 = key.rendered
  · simpa [same] using ⟨key, member, rfl⟩
  · simp [same]

def propertiesOf (object : Option (PropsObject V)) : List (List Byte × V) :=
  (object.map PropsObject.properties).getD []

structure Ready (parser : RawPropsParser) (properties : List (List Byte × V))
    (rawProps : RawProps V) : Prop where
  values : rawProps.values = (known parser.keys properties).map Prod.snd
  indices : rawProps.keyIndexToValueIndex = parser.keys.map (valueIndexOf parser.keys properties)
  cursor : ∃ next ≤ parser.keys.length, rawProps.keyIndexCursor = (next : ℤ) - 1

variable {properties : List (List Byte × V)} {rawProps : RawProps V}

/-- **A lookup.** The answer is the property with the name of the key, and the cursor is at the key. -/
theorem at_eq (prepared : Prepared parser) (ready : Ready parser properties rawProps)
    (distinct : (properties.map Prod.fst).Nodup) (enough : parser.keys.length ≤ fuel)
    (member : key ∈ parser.keys) :
    ∃ next, parser.at_ debug fuel rawProps key = some (next, getProperty properties key.rendered) ∧
      Ready parser properties next := by
  obtain ⟨i, there⟩ := mem_iff_getElem?.mp member
  obtain ⟨next, inKeys, cursor⟩ := ready.cursor
  have inside := (prepared.index_lt there).1
  have sought : parser.seek debug key fuel (next - 1) false = some ((i : ℤ), true) :=
    seek_of_cursor prepared.nodup there inKeys enough
  have stored : readAt rawProps.keyIndexToValueIndex i =
      some (valueIndexOf parser.keys properties key) := by
    rw [readAt_natCast, ready.indices, getElem?_map, there, map_some]
  have moved : Ready parser properties { rawProps with keyIndexCursor := (i : ℤ) } :=
    ⟨ready.values, ready.indices, i + 1, inside, by simp⟩
  refine ⟨_, ?_, moved⟩
  rw [at_, cursor, sought]
  simp only [bind_some, if_true, stored]
  rw [getProperty, ← find?_known member, find?_eq_bind_findIdx?_getElem?, valueIndexOf]
  cases found : (known parser.keys properties).findIdx? fun property =>
      property.1 = key.rendered with
  | none => simp
  | some position =>
    obtain ⟨present, -, -⟩ := findIdx?_eq_some_iff_getElem.mp found
    have few := prepared.few
    have bound := length_known_le parser.keys distinct
    have narrowed : (UInt8.ofNat position).toNat = position := by
      rw [UInt8.toNat_ofNat']
      omega
    simp only [map_some, getD_some, narrowed, ready.values,
      if_neg (ofNat_ne_empty (show position < 255 by omega)), bind_some, getElem?_map,
      getElem?_eq_getElem present]

theorem lookups_of_ready (prepared : Prepared parser) (distinct : (properties.map Prod.fst).Nodup)
    (enough : parser.keys.length ≤ fuel) (ready : Ready parser properties rawProps)
    {calls : List RawPropsKey} (inKeys : ∀ key ∈ calls, key ∈ parser.keys) :
    parser.lookups debug fuel rawProps calls =
      some (calls.map fun key => getProperty properties key.rendered) := by
  induction calls generalizing rawProps with
  | nil => rfl
  | cons key _ ih =>
    obtain ⟨here, later⟩ := forall_mem_cons.mp inKeys
    obtain ⟨_, answered, readyNext⟩ := at_eq prepared ready distinct enough here
    rw [lookups, answered, bind_some, ih readyNext later]
    rfl

theorem parsed_start (parser : RawPropsParser) (cursor : ℤ) : Parsed (V := V) parser []
      ({ keyIndexCursor := cursor
         keyIndexToValueIndex := replicate parser.keys.length kRawPropsValueIndexEmpty },
        0) where
  values := rfl
  valueIndex := rfl
  indices := by
    have nothing : valueIndexOf parser.keys ([] : List (List Byte × V)) =
        fun _ => kRawPropsValueIndexEmpty := rfl
    rw [nothing, map_const']

theorem ready_of_parsed {state : RawProps V × UInt8} (parsed : Parsed parser properties state)
    (cursor : state.1.keyIndexCursor = parser.keys.length - 1) : Ready parser properties state.1 :=
  ⟨parsed.values, parsed.indices, parser.keys.length, le_rfl, cursor⟩

theorem exists_preparse (prepared : Prepared parser) (named : Named parser.keys)
    (object : Option (PropsObject V))
    (short : ∀ property ∈ propertiesOf object, ShortName property.1) :
    ∃ rawProps, parser.preparse object = some rawProps ∧
      Ready parser (propertiesOf object) rawProps := by
  have start := parsed_start (V := V) parser (parser.keys.length - 1)
  cases object with
  | none => exact ⟨_, rfl, ready_of_parsed start rfl⟩
  | some object =>
    obtain ⟨final, steps, parsed, cursor⟩ :=
      prepared.parsed_preparseProperties named start short object.distinct
    refine ⟨final.1, ?_, ready_of_parsed parsed cursor⟩
    exact congrArg (Option.map Prod.fst) steps

/-- **Lookups go by names.** In whatever order and how often the keys are looked up, each call ends
and answers with the property that has the name of the key. -/
theorem lookups_eq (few : accessed.dedup.length ≤ 255) (named : Named accessed)
    (object : Option (PropsObject V))
    (short : ∀ property ∈ propertiesOf object, ShortName property.1) :
    ∃ parser rawProps, prepare accessed = some parser ∧ parser.preparse object = some rawProps ∧
      ∀ (debug : Bool) (fuel : ℕ) (calls : List RawPropsKey), accessed.dedup.length ≤ fuel →
        (∀ key ∈ calls, key ∈ accessed) →
        parser.lookups debug fuel rawProps calls =
          some (calls.map fun key => getProperty (propertiesOf object) key.rendered) := by
  obtain ⟨parser, prepares, prepared, keys⟩ := exists_prepare named.fits few
  have members : ∀ key, key ∈ parser.keys ↔ key ∈ accessed :=
    fun key => keys.mem_iff.trans mem_dedup
  have namedKeys : Named parser.keys := by
    refine ⟨prepared.fits, ?_⟩
    intro first firstMem second secondMem
    exact named.distinct first ((members first).mp firstMem) second ((members second).mp secondMem)
  obtain ⟨rawProps, preparses, ready⟩ := exists_preparse prepared namedKeys object short
  have distinct : ((propertiesOf object).map Prod.fst).Nodup := by
    cases object with
    | none => exact nodup_nil
    | some object => exact object.distinct
  refine ⟨parser, rawProps, prepares, preparses, ?_⟩
  intro debug fuel calls enough inAccessed
  exact lookups_of_ready prepared distinct (keys.length_eq.trans_le enough) ready
    fun key member => (members key).mpr (inAccessed key member)

def twoProps : List RawPropsKey :=
  [{ name := { address := 1, chars := [97] } },
    { name := { address := 2, chars := [98] }, nameSuffix := some { address := 3, chars := [99] } }]

def oneProperty : PropsObject ℕ := { properties := [([98, 99], 7)], distinct := by decide }

theorem lookups_eq_twoProps : ∃ parser rawProps, prepare twoProps = some parser ∧
    parser.preparse (some oneProperty) = some rawProps ∧
      ∀ (debug : Bool) (fuel : ℕ) (calls : List RawPropsKey), twoProps.dedup.length ≤ fuel →
        (∀ key ∈ calls, key ∈ twoProps) →
        parser.lookups debug fuel rawProps calls = some
          (calls.map fun key => getProperty (propertiesOf (some oneProperty)) key.rendered) :=
  lookups_eq (by decide) ⟨by decide, by decide⟩ (some oneProperty)
    (by simp [propertiesOf, oneProperty, ShortName, kPropNameLengthHardCap])

end RawPropsParser

end ReactNative

