import Mathlib.Data.List.Nodup
import Mathlib.Data.List.Perm.Subperm

/-! An object has a list of distinct keys, in the order in which they are enumerated, and a value
for each of them; what the function says of other keys does not matter. -/

inductive JSONValue (Key Number : Type) where
  | null
  | bool (value : Bool)
  | number (value : Number)
  | string (value : Key)
  | array (count : ℕ) (item : ℕ → JSONValue Key Number)
  | object (keys : List Key) (distinct : keys.Nodup) (value : Key → JSONValue Key Number)

namespace JSONValue

open List

variable {Key Number : Type} [DecidableEq Key]

/-- Equality of values. -/
def Same : JSONValue Key Number → JSONValue Key Number → Prop
  | .null, .null => True
  | .bool a, .bool b => a = b
  | .number a, .number b => a = b
  | .string a, .string b => a = b
  | .array count item, .array otherCount otherItem =>
    count = otherCount ∧ ∀ i < count, Same (item i) (otherItem i)
  | .object keys _ value, .object otherKeys _ otherValue =>
    (∀ key, key ∈ keys ↔ key ∈ otherKeys) ∧ ∀ key ∈ keys, Same (value key) (otherValue key)
  | _, _ => False

def isEqual [DecidableEq Number] : JSONValue Key Number → JSONValue Key Number → Bool
  | .null, .null => true
  | .bool a, .bool b => a = b
  | .number a, .number b => a = b
  | .string a, .string b => a = b
  | .array count item, .array otherCount otherItem =>
    count = otherCount && (range count).all fun i => isEqual (item i) (otherItem i)
  | .object keys _ value, .object otherKeys _ otherValue =>
    keys.length = otherKeys.length &&
      keys.all fun key => key ∈ otherKeys && isEqual (value key) (otherValue key)
  | _, _ => false

def isObject : JSONValue Key Number → Bool
  | .object _ _ _ => true
  | _ => false

def get? : JSONValue Key Number → Key → Option (JSONValue Key Number)
  | .object keys _ value, key => if key ∈ keys then some (value key) else none
  | _, _ => none

/-- The object with the value for the key. -/
def put : JSONValue Key Number → Key → JSONValue Key Number → JSONValue Key Number
  | .object keys distinct value, key, newValue =>
    if member : key ∈ keys then .object keys distinct (Function.update value key newValue)
    else .object (keys ++ [key])
      (distinct.append (nodup_singleton key) (disjoint_singleton.mpr member))
      (Function.update value key newValue)
  | other, _, _ => other

/-- **Deep merge**: the keys of the second override those of the first, except that two objects
are merged. -/
def deepMerge : JSONValue Key Number → JSONValue Key Number → JSONValue Key Number
  | .object keys distinct value, .object deltaKeys deltaDistinct deltaValue =>
    .object (keys ++ deltaKeys.filter (· ∉ keys))
      (distinct.append (deltaDistinct.filter _) (disjoint_right.mpr fun _ added =>
        of_decide_eq_true (mem_filter.mp added).2))
      fun key =>
        if key ∈ deltaKeys then
          if key ∈ keys then deepMerge (value key) (deltaValue key) else deltaValue key
        else value key
  | _, delta => delta

variable {a b c : JSONValue Key Number} {key other : Key}

/-! ### Equality -/

section

omit [DecidableEq Key]

theorem Same.refl (a : JSONValue Key Number) : Same a a := by
  induction a with
  | null => trivial
  | bool | number | string => rfl
  | array _ _ ih => exact ⟨rfl, fun i _ => ih i⟩
  | object _ _ _ ih => exact ⟨fun _ => Iff.rfl, fun key _ => ih key⟩

theorem Same.symm (same : Same a b) : Same b a := by
  induction a generalizing b with
  | null | bool | number | string =>
    cases b <;> simp_all [Same]
  | array _ _ ih =>
    cases b with
    | array =>
      obtain ⟨rfl, items⟩ := same
      exact ⟨rfl, fun i bound => ih i (items i bound)⟩
    | null | bool | number | string | object => exact same.elim
  | object _ _ _ ih =>
    cases b with
    | object =>
      obtain ⟨sameKeys, values⟩ := same
      refine ⟨fun key => (sameKeys key).symm, fun key member => ?_⟩
      exact ih key (values key ((sameKeys key).mpr member))
    | null | bool | number | string | array => exact same.elim

theorem Same.trans (first : Same a b) (second : Same b c) : Same a c := by
  induction a generalizing b c with
  | null | bool | number | string =>
    cases b <;> cases c <;> simp_all [Same]
  | array _ _ ih =>
    cases b with
    | array =>
      cases c with
      | array =>
        obtain ⟨rfl, items⟩ := first
        obtain ⟨rfl, otherItems⟩ := second
        exact ⟨rfl, fun i bound => ih i (items i bound) (otherItems i bound)⟩
      | null | bool | number | string | object => exact second.elim
    | null | bool | number | string | object => exact first.elim
  | object _ _ _ ih =>
    cases b with
    | object =>
      cases c with
      | object =>
        obtain ⟨sameKeys, values⟩ := first
        obtain ⟨otherSame, otherValues⟩ := second
        refine ⟨fun key => (sameKeys key).trans (otherSame key), fun key member => ?_⟩
        exact ih key (values key member) (otherValues key ((sameKeys key).mp member))
      | null | bool | number | string | array => exact second.elim
    | null | bool | number | string | array => exact first.elim

theorem Same.isObject (same : Same a b) : a.isObject = b.isObject := by
  cases a <;> cases b <;> first | rfl | exact same.elim

end

theorem isEqual_iff [DecidableEq Number] : isEqual a b = true ↔ Same a b := by
  induction a generalizing b with
  | null | bool | number | string =>
    cases b <;> simp [isEqual, Same]
  | array _ _ ih =>
    cases b with
    | array => simp [isEqual, Same, ih]
    | null | bool | number | string | object => simp [isEqual, Same]
  | object keys distinct _ ih =>
    cases b with
    | object otherKeys otherDistinct =>
      simp only [isEqual, Same, Bool.and_eq_true, decide_eq_true_eq, all_eq_true, ih]
      constructor
      · rintro ⟨sameLength, values⟩
        -- As many distinct keys, all of them among the others.
        have subset : keys ⊆ otherKeys := fun key member => (values key member).1
        have perm : keys.Perm otherKeys :=
          (subperm_of_subset distinct subset).perm_of_length_le (Nat.le_of_eq sameLength.symm)
        exact ⟨fun key => perm.mem_iff, fun key member => (values key member).2⟩
      · rintro ⟨sameKeys, values⟩
        have perm : keys.Perm otherKeys := (perm_ext_iff_of_nodup distinct otherDistinct).mpr sameKeys
        exact ⟨perm.length_eq, fun key member => ⟨(sameKeys key).mp member, values key member⟩⟩
    | null | bool | number | string | array => simp [isEqual, Same]

/-! ### Values by key -/

theorem isObject_of_get? {value : JSONValue Key Number} (found : a.get? key = some value) :
    a.isObject = true := by
  cases a with
  | object => rfl
  | null | bool | number | string | array => cases found

theorem get?_induction {motive : JSONValue Key Number → Prop}
    (step : ∀ a, (∀ key value, a.get? key = some value → motive value) → motive a)
    (a : JSONValue Key Number) : motive a := by
  induction a with
  | object _ _ value ih =>
    refine step _ fun key found isFound => ?_
    rw [get?] at isFound
    split at isFound
    next =>
      obtain rfl := Option.some.inj isFound
      exact ih key
    next => cases isFound
  | null | bool | number | string | array =>
    refine step _ fun key found isFound => ?_
    cases isFound

theorem same_iff_get? (isObject : a.isObject = true) (otherObject : b.isObject = true) :
    Same a b ↔ ∀ key, Option.Rel Same (a.get? key) (b.get? key) := by
  cases a with
  | object keys =>
    cases b with
    | object otherKeys =>
      constructor
      · rintro ⟨sameKeys, values⟩ key
        by_cases member : key ∈ keys
        · rw [get?, get?, if_pos member, if_pos ((sameKeys key).mp member)]
          exact .some (values key member)
        · rw [get?, get?, if_neg member, if_neg (mt (sameKeys key).mpr member)]
          exact .none
      · intro values
        have sameKeys : ∀ key, key ∈ keys ↔ key ∈ otherKeys := by
          intro key
          have here := values key
          rw [get?, get?] at here
          split at here <;> split at here
          next member otherMember => exact iff_of_true member otherMember
          next => cases here
          next => cases here
          next missing otherMissing => exact iff_of_false missing otherMissing
        refine ⟨sameKeys, fun key member => ?_⟩
        have here := values key
        rw [get?, get?, if_pos member, if_pos ((sameKeys key).mp member)] at here
        cases here with
        | some same => exact same
    | null | bool | number | string | array => cases otherObject
  | null | bool | number | string | array => cases isObject

theorem isObject_put (isObject : a.isObject = true) (key : Key) (value : JSONValue Key Number) :
    (a.put key value).isObject = true := by
  cases a with
  | object =>
    rw [put]
    split
    next => rfl
    next => rfl
  | null | bool | number | string | array => cases isObject

theorem get?_put_self (isObject : a.isObject = true) (key : Key) (value : JSONValue Key Number) :
    (a.put key value).get? key = some value := by
  cases a with
  | object =>
    rw [put]
    split
    next member => rw [get?, if_pos member, Function.update_self]
    next => rw [get?, if_pos (mem_append_right _ mem_cons_self), Function.update_self]
  | null | bool | number | string | array => cases isObject

theorem get?_put_of_ne (differs : other ≠ key) (a value : JSONValue Key Number) :
    (a.put key value).get? other = a.get? other := by
  cases a with
  | object =>
    rw [put]
    split
    next => rw [get?, get?, Function.update_of_ne differs]
    next => simp [get?, differs]
  | null | bool | number | string | array => rfl

theorem deepMerge_of_not_object (notBoth : ¬ (a.isObject = true ∧ b.isObject = true)) :
    deepMerge a b = b := by
  cases a with
  | object =>
    cases b with
    | object => exact absurd ⟨rfl, rfl⟩ notBoth
    | null | bool | number | string | array => rfl
  | null | bool | number | string | array => rfl

theorem isObject_deepMerge (isObject : b.isObject = true) : (deepMerge a b).isObject = true := by
  cases a with
  | object =>
    cases b with
    | object => rfl
    | null | bool | number | string | array => cases isObject
  | null | bool | number | string | array => exact isObject

theorem get?_deepMerge (isObject : a.isObject = true) (deltaObject : b.isObject = true) (key : Key) :
    (deepMerge a b).get? key = (b.get? key).elim (a.get? key) fun delta =>
      some ((a.get? key).elim delta fun old => deepMerge old delta) := by
  cases a with
  | object keys =>
    cases b with
    | object deltaKeys =>
      by_cases isDelta : key ∈ deltaKeys <;> by_cases isOld : key ∈ keys <;>
        simp [deepMerge, get?, isDelta, isOld]
    | null | bool | number | string | array => cases deltaObject
  | null | bool | number | string | array => cases isObject

variable {keys : List Key}

/-- A loop over distinct keys, in which each turn changes the value of its key by what the value
was. -/
theorem get?_foldl {act : JSONValue Key Number → Key → JSONValue Key Number}
    (result : Key → Option (JSONValue Key Number) → Option (JSONValue Key Number))
    (objects : ∀ a key, a.isObject = true → (act a key).isObject = true)
    (here : ∀ a key, a.isObject = true → (act a key).get? key = result key (a.get? key))
    (elsewhere : ∀ a key other, a.isObject = true → other ≠ key →
      (act a key).get? other = a.get? other) (distinct : keys.Nodup)
    (isObject : a.isObject = true) :
    (keys.foldl act a).isObject = true ∧ ∀ other, (keys.foldl act a).get? other =
      if other ∈ keys then result other (a.get? other) else a.get? other := by
  induction keys generalizing a with
  | nil => exact ⟨isObject, fun other => rfl⟩
  | cons key _ ih =>
    obtain ⟨missing, distinct⟩ := nodup_cons.mp distinct
    obtain ⟨isObjectAfter, values⟩ := ih distinct (objects a key isObject)
    refine ⟨isObjectAfter, fun other => ?_⟩
    rw [foldl_cons, values]
    by_cases same : other = key
    · subst same
      rw [if_neg missing, if_pos mem_cons_self, here a other isObject]
    · rw [elsewhere a key other isObject same]
      simp only [mem_cons, same, false_or]

def writeKey (write : Key → Option (JSONValue Key Number) → Option (JSONValue Key Number))
    (result : JSONValue Key Number × Bool) (key : Key) : JSONValue Key Number × Bool :=
  (write key (result.1.get? key)).elim result fun value => (result.1.put key value, true)

section

variable (write : Key → Option (JSONValue Key Number) → Option (JSONValue Key Number))

theorem foldl_writeKey_fst (keys : List Key) (result : JSONValue Key Number × Bool) :
    (keys.foldl (writeKey write) result).1 =
      keys.foldl (fun a key => (write key (a.get? key)).elim a fun value => a.put key value)
        result.1 := by
  induction keys generalizing result with
  | nil => rfl
  | cons key _ ih =>
    rw [foldl_cons, foldl_cons, ih, writeKey]
    cases write key (result.1.get? key) with
    | none => rfl
    | some value => rfl

theorem get?_foldl_writeKey (distinct : keys.Nodup) (isObject : a.isObject = true)
    (modified : Bool) :
    (keys.foldl (writeKey write) (a, modified)).1.isObject = true ∧
      ∀ other, (keys.foldl (writeKey write) (a, modified)).1.get? other =
        if other ∈ keys then (write other (a.get? other)).or (a.get? other) else a.get? other := by
  rw [foldl_writeKey_fst]
  refine get?_foldl (fun key old => (write key old).or old) ?_ ?_ ?_ distinct isObject
  · intro a key isObject
    cases write key (a.get? key) with
    | none => exact isObject
    | some value => exact isObject_put isObject key value
  · intro a key isObject
    cases write key (a.get? key) with
    | none => rfl
    | some value => exact get?_put_self isObject key value
  · intro a key other isObject differs
    cases write key (a.get? key) with
    | none => rfl
    | some value => exact get?_put_of_ne differs a value

theorem foldl_writeKey_snd (distinct : keys.Nodup) (a : JSONValue Key Number) (modified : Bool) :
    (keys.foldl (writeKey write) (a, modified)).2 = true ↔
      modified = true ∨ ∃ key ∈ keys, write key (a.get? key) ≠ none := by
  induction keys generalizing a modified with
  | nil => simp
  | cons key _ ih =>
    obtain ⟨-, distinct⟩ := nodup_cons.mp distinct
    rw [foldl_cons, writeKey]
    cases writes : write key (a.get? key) with
    | none =>
      rw [Option.elim_none, ih distinct]
      simp [writes]
    | some =>
      rw [Option.elim_some, ih distinct]
      simp [writes]

theorem foldl_writeKey_of_unmodified {a : JSONValue Key Number} {modified : Bool}
    (unmodified : (keys.foldl (writeKey write) (a, modified)).2 = false) :
    (keys.foldl (writeKey write) (a, modified)).1 = a := by
  have sticky : ∀ (keys : List Key) (a : JSONValue Key Number),
      (keys.foldl (writeKey write) (a, true)).2 = true := by
    intro keys
    induction keys with
    | nil => exact fun _ => rfl
    | cons key rest ih =>
      intro a
      rw [foldl_cons, writeKey]
      cases write key (a.get? key) with
      | none => exact ih a
      | some value => exact ih _
  induction keys generalizing a modified with
  | nil => rfl
  | cons key rest ih =>
    rw [foldl_cons, writeKey] at unmodified ⊢
    cases writes : write key (a.get? key) with
    | none =>
      rw [writes] at unmodified
      exact ih unmodified
    | some value =>
      rw [writes, Option.elim_some, sticky] at unmodified
      cases unmodified

end

end JSONValue
