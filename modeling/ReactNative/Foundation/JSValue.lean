import Mathlib.Data.Rat.Init
import ReactNative.Foundation.Regex

/-! Finite trees of plain values, as they are at one moment: arrays and objects have an identity, by
which `===` compares them. An object has a list of keys, in the order in which they are enumerated,
and a value for each of them. -/

open Regex (units)

inductive JSValue where
  | undefined
  | null
  | bool (value : Bool)
  | number (value : ℚ)
  | string (text : List UInt16)
  | function (name : List UInt16)
  | array (id : ℕ) (length : ℕ) (item : ℕ → JSValue)
  | object (id : ℕ) (keys : List (List UInt16)) (value : List UInt16 → JSValue)

namespace JSValue

/-- `===` -/
def identical : JSValue → JSValue → Bool
  | undefined, undefined => true
  | null, null => true
  | bool a, bool b => a = b
  | number a, number b => a = b
  | string a, string b => a = b
  | function a, function b => a = b
  | array a _ _, array b _ _ => a = b
  | object a _ _, object b _ _ => a = b
  | _, _ => false

/-- The condition holds of the value and of all that is in it. -/
def All (p : JSValue → Prop) : JSValue → Prop
  | array id length item => p (array id length item) ∧ ∀ i < length, All p (item i)
  | object id keys value => p (object id keys value) ∧ ∀ key ∈ keys, All p (value key)
  | value => p value

theorem All.here {p : JSValue → Prop} {value : JSValue} (all : All p value) : p value := by
  cases value <;> first | exact all.1 | exact all

/-- The methods of `Object.prototype`. -/
def prototypeMethods : List (List UInt16) :=
  ["constructor", "hasOwnProperty", "isPrototypeOf", "propertyIsEnumerable", "toLocaleString",
    "toString", "valueOf", "__defineGetter__", "__defineSetter__", "__lookupGetter__",
    "__lookupSetter__"].map units

/-- What a plain object without such a key has for it; 0 is the identity of `Object.prototype`. -/
def inherited (key : List UInt16) : JSValue :=
  if key = units "__proto__" then object 0 [] fun _ => undefined
  else if key ∈ prototypeMethods then function key
  else undefined

end JSValue

