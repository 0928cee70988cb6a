import ReactNative.Core.RawPropsKeyMap

/-! While it is prepared, the parser collects the keys that the props of a component access. The raw
props that it parses afterwards have, for each key, the index of the value of the property with its
name. -/
namespace ReactNative

structure RawPropsParser where
  keys : List RawPropsKey := []
  nameToIndex : RawPropsKeyMap := {}

structure PropsObject (V : Type) where
  properties : List (List Byte × V)
  distinct : (properties.map Prod.fst).Nodup

structure RawProps (V : Type) where
  keyIndexCursor : ℤ
  keyIndexToValueIndex : List UInt8
  values : List V := []

namespace RawPropsParser

variable {V : Type} (parser : RawPropsParser)

/-- `at` while the parser is prepared. -/
def collect (key : RawPropsKey) : Option RawPropsParser :=
  if key ∈ parser.keys then some parser
  else
    (parser.nameToIndex.insert key (UInt8.ofNat parser.keys.length)).map fun nameToIndex =>
      { keys := parser.keys ++ [key], nameToIndex := nameToIndex }

def collectAll (parser : RawPropsParser) : List RawPropsKey → Option RawPropsParser
  | [] => some parser
  | key :: rest => (parser.collect key).bind fun next => next.collectAll rest

/-- Prepared by props that access the keys, with repetitions. -/
def prepare (accessed : List RawPropsKey) : Option RawPropsParser :=
  (collectAll {} accessed).map fun parser =>
    { parser with nameToIndex := parser.nameToIndex.reindex }

/-- One round of the loop over the property names, with the index of the next value. -/
def preparseProperty (state : RawProps V × UInt8)
    (property : List Byte × V) : Option (RawProps V × UInt8) :=
  (parser.nameToIndex.at_ property.1 (UInt8.ofNat property.1.length)).bind fun keyIndex =>
    if keyIndex = kRawPropsValueIndexEmpty then some state
    else if keyIndex.toNat < state.1.keyIndexToValueIndex.length then
      some
        ({ state.1 with
            keyIndexToValueIndex := state.1.keyIndexToValueIndex.set keyIndex.toNat state.2
            values := state.1.values ++ [property.2] },
          state.2 + 1)
    else none

def preparseProperties (parser : RawPropsParser) (state : RawProps V × UInt8) :
    List (List Byte × V) → Option (RawProps V × UInt8)
  | [] => some state
  | property :: rest =>
    (parser.preparseProperty state property).bind fun next => parser.preparseProperties next rest

/-- The next increment of the cursor gives zero. There is no object in the mode `Empty`. -/
def preparse (object : Option (PropsObject V)) : Option (RawProps V) :=
  let rawProps : RawProps V :=
    { keyIndexCursor := parser.keys.length - 1
      keyIndexToValueIndex := List.replicate parser.keys.length kRawPropsValueIndexEmpty }
  match object with
  | none => some rawProps
  | some object => (parser.preparseProperties (rawProps, 0) object.properties).map Prod.fst

/-- The cursor at the key, or `none` in place of a key that a debug build gives up on. -/
def seek (parser : RawPropsParser) (debug : Bool) (key : RawPropsKey) :
    (fuel : ℕ) → (cursor : ℤ) → (resetLoop : Bool) → Option (ℤ × Bool)
  | 0, _, _ => none
  | fuel + 1, cursor, resetLoop =>
    let wraps : Bool := cursor + 1 ≥ parser.keys.length
    if debug && wraps && resetLoop then some (cursor + 1, false)
    else
      let next := if wraps then 0 else cursor + 1
      match RawPropsKeyMap.readAt parser.keys next with
      | none => none
      | some found =>
        if found = key then some (next, true)
        else parser.seek debug key fuel next (resetLoop || wraps)

/-- `at` of a prepared parser, as a release build does it or a debug build. -/
def at_ (debug : Bool) (fuel : ℕ) (rawProps : RawProps V)
    (key : RawPropsKey) : Option (RawProps V × Option V) :=
  (parser.seek debug key fuel rawProps.keyIndexCursor false).bind fun sought =>
    let moved := { rawProps with keyIndexCursor := sought.1 }
    if sought.2 then
      (RawPropsKeyMap.readAt rawProps.keyIndexToValueIndex sought.1).bind fun valueIndex =>
        if valueIndex = kRawPropsValueIndexEmpty then some (moved, none)
        else (rawProps.values[valueIndex.toNat]?).map fun value => (moved, some value)
    else some (moved, none)

def lookups (parser : RawPropsParser) (debug : Bool) (fuel : ℕ) :
    RawProps V → List RawPropsKey → Option (List (Option V))
  | _, [] => some []
  | rawProps, key :: rest =>
    (parser.at_ debug fuel rawProps key).bind fun answered =>
      (parser.lookups debug fuel answered.1 rest).map fun answers => answered.2 :: answers

end RawPropsParser

end ReactNative

