import ReactNative.Foundation.JSONValue

/-! `mergeRecursive` is `RCTMergeRecursive` of iOS: it also tells whether it modified anything, and
for a value that is no object it compares the whole source with what the destination has for the
key. -/
namespace ReactNative

open JSONValue Option

variable {Key Number : Type} [DecidableEq Key] [DecidableEq Number]

def mergeKey (recurse : JSONValue Key Number → JSONValue Key Number × Bool)
    (source sourceValue : JSONValue Key Number)
    (result : JSONValue Key Number × Bool) (key : Key) : JSONValue Key Number × Bool :=
  if sourceValue.isObject then
    match result.1.get? key with
    | some destinationValue =>
      if destinationValue.isObject then
        let (merged, modified) := recurse destinationValue
        if modified then (result.1.put key merged, true) else result
      else (result.1.put key sourceValue, true)
    | none => (result.1.put key sourceValue, true)
  else if (result.1.get? key).any source.isEqual then result
  else (result.1.put key sourceValue, true)

/-- The destination after the merge, and whether it was modified. -/
def mergeRecursive : (source : JSONValue Key Number) → (destination : JSONValue Key Number) →
    JSONValue Key Number × Bool
  | .object keys distinct value, destination =>
    keys.foldl (fun result key =>
      mergeKey (mergeRecursive (value key)) (.object keys distinct value) (value key) result key)
      (destination, false)
  | _, destination => (destination, false)

def putMerged (recurse : JSONValue Key Number → JSONValue Key Number)
    (newValue oldJSON : JSONValue Key Number) (key : Key) : JSONValue Key Number :=
  match oldJSON.get? key with
  | some oldJSONObject =>
    if oldJSONObject.isObject ∧ newValue.isObject then
      oldJSON.put key (recurse oldJSONObject)
    else oldJSON.put key newValue
  | none => oldJSON.put key newValue

def deepMergeInto : (newJSON : JSONValue Key Number) → (oldJSON : JSONValue Key Number) →
    JSONValue Key Number
  | .object keys _ value, oldJSON =>
    keys.foldl (fun oldJSON key => putMerged (deepMergeInto (value key)) (value key) oldJSON key)
      oldJSON
  | _, oldJSON => oldJSON

variable {old delta : JSONValue Key Number}

/-! ### Places where both have objects -/

/-- At the same place, the first has one object and the second has the other. -/
inductive Level : (old delta oldHere deltaHere : JSONValue Key Number) → Prop
  | here {old delta : JSONValue Key Number} : old.isObject = true → delta.isObject = true →
    Level old delta old delta
  | there {old delta oldValue deltaValue oldHere deltaHere : JSONValue Key Number} (key : Key) :
    old.get? key = some oldValue → delta.get? key = some deltaValue →
      Level oldValue deltaValue oldHere deltaHere → Level old delta oldHere deltaHere

/-- Some value of the delta is no object and would replace an object that is the same as the one
that it is in. -/
def Slips (old delta : JSONValue Key Number) : Prop :=
  ∃ oldHere deltaHere, Level old delta oldHere deltaHere ∧ ∃ key deltaValue oldValue,
    deltaHere.get? key = some deltaValue ∧ deltaValue.isObject = false ∧
      oldHere.get? key = some oldValue ∧ Same deltaHere oldValue

/-- Some value of the delta is to be written: one that is no object, apart from those that slip, or
an object in place of something else. -/
def Writes (old delta : JSONValue Key Number) : Prop :=
  ∃ oldHere deltaHere, Level old delta oldHere deltaHere ∧ ∃ key deltaValue,
    deltaHere.get? key = some deltaValue ∧ (deltaValue.isObject = true ∧
          (∀ oldValue, oldHere.get? key = some oldValue → oldValue.isObject = false) ∨
        deltaValue.isObject = false ∧
          ∀ oldValue, oldHere.get? key = some oldValue → ¬ Same deltaHere oldValue)

/-- The delta has all keys of the other, wherever both have objects. -/
def Covers (old delta : JSONValue Key Number) : Prop :=
  ∀ oldHere deltaHere, Level old delta oldHere deltaHere →
    ∀ key, oldHere.get? key ≠ none → deltaHere.get? key ≠ none

omit [DecidableEq Number] in
theorem Level.objects {oldHere deltaHere : JSONValue Key Number}
    (level : Level old delta oldHere deltaHere) : old.isObject = true ∧ delta.isObject = true := by
  cases level with
  | here isObject deltaObject => exact ⟨isObject, deltaObject⟩
  | there key found deltaFound _ => exact ⟨isObject_of_get? found, isObject_of_get? deltaFound⟩

omit [DecidableEq Number] in
theorem exists_level_iff (isObject : old.isObject = true) (deltaObject : delta.isObject = true)
    {holds : JSONValue Key Number → JSONValue Key Number → Prop} :
    (∃ oldHere deltaHere, Level old delta oldHere deltaHere ∧ holds oldHere deltaHere) ↔
      holds old delta ∨ ∃ key oldValue deltaValue, old.get? key = some oldValue ∧
        delta.get? key = some deltaValue ∧
        ∃ oldHere deltaHere, Level oldValue deltaValue oldHere deltaHere ∧
          holds oldHere deltaHere := by
  constructor
  · rintro ⟨oldHere, deltaHere, level, isHere⟩
    cases level with
    | here => exact Or.inl isHere
    | there key found deltaFound level =>
      exact Or.inr ⟨key, _, _, found, deltaFound, oldHere, deltaHere, level, isHere⟩
  · rintro (isHere | ⟨key, oldValue, deltaValue, found, deltaFound, oldHere, deltaHere, level, isHere⟩)
    · exact ⟨old, delta, .here isObject deltaObject, isHere⟩
    · exact ⟨oldHere, deltaHere, .there key found deltaFound level, isHere⟩

/-! ### `RCTMergeRecursive` -/

variable (recurse : JSONValue Key Number → JSONValue Key Number × Bool)

def mergeWrite
    (source sourceValue : JSONValue Key Number) (destinationValue : Option (JSONValue Key Number)) :
    Option (JSONValue Key Number) :=
  if sourceValue.isObject then
    if destinationValue.any isObject then
      destinationValue.bind fun value =>
        if (recurse value).2 then some (recurse value).1 else none
    else some sourceValue
  else if destinationValue.any source.isEqual then none
  else some sourceValue

theorem mergeKey_eq
    (source sourceValue : JSONValue Key Number) (result : JSONValue Key Number × Bool) (key : Key) :
    mergeKey recurse source sourceValue result key =
      (mergeWrite recurse source sourceValue (result.1.get? key)).elim result
        fun value => (result.1.put key value, true) := by
  rw [mergeKey, mergeWrite]
  cases result.1.get? key with
  | none =>
    split
    next => rfl
    next => rfl
  | some destinationValue =>
    split
    next =>
      cases isObject : destinationValue.isObject with
      | false => simp [isObject]
      | true =>
        cases modified : (recurse destinationValue).2 with
        | false => simp [isObject, modified]
        | true => simp [isObject, modified]
    next =>
      split
      next => rfl
      next => rfl

def sourceWrite (delta : JSONValue Key Number) (key : Key)
    (destinationValue : Option (JSONValue Key Number)) : Option (JSONValue Key Number) :=
  (delta.get? key).bind fun value => mergeWrite (mergeRecursive value) delta value destinationValue

theorem mergeRecursive_spec (isObject : old.isObject = true) (deltaObject : delta.isObject = true) :
    (mergeRecursive delta old).1.isObject = true ∧
    (∀ key, (mergeRecursive delta old).1.get? key =
      (sourceWrite delta key (old.get? key)).or (old.get? key)) ∧
    ((mergeRecursive delta old).2 = true ↔ ∃ key, sourceWrite delta key (old.get? key) ≠ none) ∧
    ((mergeRecursive delta old).2 = false → (mergeRecursive delta old).1 = old) := by
  cases delta with
  | object keys distinct value =>
    -- A key of the delta is written as the model of one write says, and no other is.
    have isWrite : ∀ key ∈ keys, mergeWrite (mergeRecursive (value key))
        (.object keys distinct value) (value key) =
          sourceWrite (.object keys distinct value) key := by
      intro key member
      funext destinationValue
      rw [sourceWrite, get?, if_pos member, bind_some]
    have noWrite : ∀ key, key ∉ keys →
        ∀ old, sourceWrite (.object keys distinct value) key old = none := by
      intro key missing old
      rw [sourceWrite, get?, if_neg missing, bind_none]
    -- So the loop is a fold of single writes, each key once.
    have loop : mergeRecursive (.object keys distinct value) old =
        keys.foldl (writeKey (sourceWrite (.object keys distinct value))) (old, false) := by
      refine List.foldl_ext _ _ _ fun result key member => ?_
      rw [mergeKey_eq, isWrite key member, writeKey]
    rw [loop]
    obtain ⟨isObjectAfter, values⟩ := get?_foldl_writeKey
      (sourceWrite (.object keys distinct value)) distinct isObject false
    refine ⟨isObjectAfter, fun key => ?_, ?_, foldl_writeKey_of_unmodified _⟩
    · rw [values]
      split
      next => rfl
      next missing => rw [noWrite key missing, none_or]
    · rw [foldl_writeKey_snd _ distinct]
      constructor
      · rintro (modified | ⟨key, -, writes⟩)
        · cases modified
        · exact ⟨key, writes⟩
      · rintro ⟨key, writes⟩
        refine Or.inr ⟨key, ?_, writes⟩
        by_contra missing
        exact writes (noWrite key missing _)
  | null | bool | number | string | array => cases deltaObject

variable {key : Key} {deltaValue : JSONValue Key Number}

theorem sourceWrite_eq_none_iff (found : delta.get? key = some deltaValue)
    (oldValue : Option (JSONValue Key Number)) :
    sourceWrite delta key oldValue = none ↔
      (deltaValue.isObject = true ∧ ∃ value, oldValue = some value ∧ value.isObject = true ∧
          (mergeRecursive deltaValue value).2 = false) ∨
        deltaValue.isObject = false ∧ ∃ value, oldValue = some value ∧ Same delta value := by
  rw [sourceWrite, found, bind_some, mergeWrite]
  cases isObject : deltaValue.isObject with
  | false =>
    cases oldValue with
    | none => simp
    | some value => simp [isEqual_iff]
  | true =>
    cases oldValue with
    | none => simp
    | some value =>
      cases valueObject : value.isObject with
      | false => simp [valueObject]
      | true => simp [valueObject]

/-- **The flag says that there was something to write.** -/
theorem mergeRecursive_modified_iff (isObject : old.isObject = true)
    (deltaObject : delta.isObject = true) :
    (mergeRecursive delta old).2 = true ↔ Writes old delta := by
  -- Induction over the delta, level by level.
  induction delta using get?_induction generalizing old with
  | step delta ih =>
    rw [(mergeRecursive_spec isObject deltaObject).2.2.1, Writes,
      exists_level_iff isObject deltaObject]
    constructor
    · rintro ⟨key, writes⟩
      obtain ⟨deltaValue, found⟩ : ∃ deltaValue, delta.get? key = some deltaValue := by
        rw [← ne_none_iff_exists']
        intro missing
        rw [sourceWrite, missing] at writes
        exact writes rfl
      -- A write is left out if the value is the same, or if below nothing is written.
      rw [Ne, sourceWrite_eq_none_iff found, not_or] at writes
      cases valueObject : deltaValue.isObject with
      | false =>
        refine Or.inl ⟨key, deltaValue, found, Or.inr ⟨valueObject, fun oldValue isOld same => ?_⟩⟩
        exact writes.2 ⟨valueObject, oldValue, isOld, same⟩
      | true =>
        by_cases nested : ∃ oldValue, old.get? key = some oldValue ∧ oldValue.isObject = true
        · obtain ⟨oldValue, isOld, oldObject⟩ := nested
          have modified : (mergeRecursive deltaValue oldValue).2 = true := by
            by_contra unmodified
            rw [Bool.not_eq_true] at unmodified
            exact writes.1 ⟨valueObject, oldValue, isOld, oldObject, unmodified⟩
          exact Or.inr ⟨key, oldValue, deltaValue, isOld, found,
            (ih key deltaValue found oldObject valueObject).mp modified⟩
        · refine Or.inl ⟨key, deltaValue, found, Or.inl ⟨valueObject, fun oldValue isOld => ?_⟩⟩
          rw [← Bool.not_eq_true]
          exact fun oldObject => nested ⟨oldValue, isOld, oldObject⟩
    -- Back: a difference on this level, or one below a key that both have as objects.
    · rintro (⟨key, deltaValue, found, toWrite⟩ | ⟨key, oldValue, deltaValue, isOld, found, below⟩)
      · refine ⟨key, ?_⟩
        rw [Ne, sourceWrite_eq_none_iff found]
        rintro (⟨valueObject, oldValue, isOld, oldObject, -⟩ | ⟨notObject, oldValue, isOld, same⟩)
        · rcases toWrite with ⟨-, elsewhere⟩ | ⟨notObject, -⟩
          · cases (elsewhere oldValue isOld).symm.trans oldObject
          · cases notObject.symm.trans valueObject
        · rcases toWrite with ⟨valueObject, -⟩ | ⟨-, differs⟩
          · cases notObject.symm.trans valueObject
          · exact differs oldValue isOld same
      · have objects : oldValue.isObject = true ∧ deltaValue.isObject = true := by
          obtain ⟨_, _, level, -⟩ := below
          exact level.objects
        have modified := (ih key deltaValue found objects.1 objects.2).mpr below
        refine ⟨key, ?_⟩
        rw [Ne, sourceWrite_eq_none_iff found]
        rintro (⟨-, _, isOther, -, unmodified⟩ | ⟨notObject, -⟩)
        · obtain rfl := some.inj (isOld.symm.trans isOther)
          cases modified.symm.trans unmodified
        · cases notObject.symm.trans objects.2

/-! ### The values after the merge -/

section

variable (isObject : old.isObject = true) (deltaObject : delta.isObject = true)
include isObject deltaObject

theorem get?_merge_missing (missing : delta.get? key = none) :
    (mergeRecursive delta old).1.get? key = old.get? key := by
  rw [(mergeRecursive_spec isObject deltaObject).2.1, sourceWrite, missing, bind_none, none_or]

section

variable {oldValue : JSONValue Key Number} (isOld : old.get? key = some oldValue)
  (found : delta.get? key = some deltaValue)
include isOld found

theorem get?_merge_objects (oldObject : oldValue.isObject = true)
    (valueObject : deltaValue.isObject = true) :
    (mergeRecursive delta old).1.get? key = some (mergeRecursive deltaValue oldValue).1 := by
  have unmodified := (mergeRecursive_spec oldObject valueObject).2.2.2
  rw [(mergeRecursive_spec isObject deltaObject).2.1, sourceWrite, found, isOld, bind_some,
    mergeWrite, if_pos valueObject, any_some, if_pos oldObject, bind_some]
  cases modified : (mergeRecursive deltaValue oldValue).2 with
  | true => simp
  | false => simp [unmodified modified]

theorem get?_merge_slip (notObject : deltaValue.isObject = false) (same : Same delta oldValue) :
    (mergeRecursive delta old).1.get? key = some oldValue := by
  have nothing := (sourceWrite_eq_none_iff found (old.get? key)).mpr
    (Or.inr ⟨notObject, oldValue, isOld, same⟩)
  rw [(mergeRecursive_spec isObject deltaObject).2.1, nothing, none_or, isOld]

end

theorem get?_merge_write (found : delta.get? key = some deltaValue)
    (replaces : ∀ oldValue, old.get? key = some oldValue →
      (deltaValue.isObject = true → oldValue.isObject = false) ∧
        (deltaValue.isObject = false → ¬ Same delta oldValue)) :
    (mergeRecursive delta old).1.get? key = some deltaValue := by
  rw [(mergeRecursive_spec isObject deltaObject).2.1, sourceWrite, found, bind_some, mergeWrite]
  cases isOld : old.get? key with
  | none => cases deltaValue.isObject <;> simp
  | some oldValue =>
    obtain ⟨notNested, differs⟩ := replaces oldValue isOld
    cases valueObject : deltaValue.isObject with
    | true => simp [notNested valueObject]
    | false => simp [isEqual_iff, differs valueObject]

/-- **Without slips the merge is the deep merge**, and with one it is not. -/
theorem same_merge_iff :
    Same (mergeRecursive delta old).1 (deepMerge old delta) ↔ ¬ Slips old delta := by
  -- Induction over the delta, level by level, key by key.
  induction delta using get?_induction generalizing old with
  | step delta ih =>
    have mergedObject := (mergeRecursive_spec isObject deltaObject).1
    rw [same_iff_get? mergedObject (isObject_deepMerge deltaObject), Slips,
      exists_level_iff isObject deltaObject]
    constructor
    · rintro values (⟨key, deltaValue, oldValue, found, notObject, isOld, same⟩ |
        ⟨key, oldValue, deltaValue, isOld, found, below⟩)
      -- A slip shows at its key: the old value has stayed where the delta has another one.
      · have here := values key
        rw [get?_merge_slip isObject deltaObject isOld found notObject same,
          get?_deepMerge isObject deltaObject, found, isOld, elim_some, elim_some,
          deepMerge_of_not_object (fun both => by cases notObject.symm.trans both.2)] at here
        cases here with
        | some sameValue =>
          have both := same.isObject.trans sameValue.isObject
          rw [deltaObject, notObject] at both
          cases both
      · have objects : oldValue.isObject = true ∧ deltaValue.isObject = true := by
          obtain ⟨_, _, level, -⟩ := below
          exact level.objects
        have here := values key
        rw [get?_merge_objects isObject deltaObject isOld found objects.1 objects.2,
          get?_deepMerge isObject deltaObject, found, isOld, elim_some,
          elim_some] at here
        cases here with
        | some sameValue =>
          exact (ih key deltaValue found objects.1 objects.2).mp sameValue below
    -- Without slips each key is written, merged below, or kept as the delta does not have it.
    · intro noSlip key
      rw [get?_deepMerge isObject deltaObject]
      cases found : delta.get? key with
      | none =>
        rw [get?_merge_missing isObject deltaObject found, elim_none]
        cases old.get? key with
        | none => exact .none
        | some oldValue => exact .some (Same.refl oldValue)
      | some deltaValue =>
        by_cases nested : ∃ oldValue, old.get? key = some oldValue ∧ oldValue.isObject = true ∧
            deltaValue.isObject = true
        · obtain ⟨oldValue, isOld, oldObject, valueObject⟩ := nested
          rw [get?_merge_objects isObject deltaObject isOld found oldObject valueObject, isOld]
          refine .some ((ih key deltaValue found oldObject valueObject).mpr fun below => ?_)
          exact noSlip (Or.inr ⟨key, oldValue, deltaValue, isOld, found, below⟩)
        · have written : (mergeRecursive delta old).1.get? key = some deltaValue := by
            refine get?_merge_write isObject deltaObject found fun oldValue isOld => ⟨?_, ?_⟩
            · intro valueObject
              rw [← Bool.not_eq_true]
              exact fun oldObject => nested ⟨oldValue, isOld, oldObject, valueObject⟩
            · intro notObject same
              exact noSlip (Or.inl ⟨key, deltaValue, oldValue, found, notObject, isOld, same⟩)
          rw [written]
          refine .some ?_
          cases isOld : old.get? key with
          | none => exact Same.refl deltaValue
          | some oldValue =>
            rw [elim_some, deepMerge_of_not_object]
            · exact Same.refl deltaValue
            · exact fun both => nested ⟨oldValue, isOld, both⟩

end

/-! ### A delta with nothing to write -/

section

omit [DecidableEq Number]

theorem covers_iff (isObject : old.isObject = true) (deltaObject : delta.isObject = true) :
    Covers old delta ↔ (∀ key, old.get? key ≠ none → delta.get? key ≠ none) ∧
      ∀ key oldValue deltaValue, old.get? key = some oldValue →
        delta.get? key = some deltaValue → Covers oldValue deltaValue := by
  constructor
  · intro covers
    refine ⟨covers old delta (.here isObject deltaObject), ?_⟩
    intro key oldValue deltaValue isOld found oldHere deltaHere level
    exact covers oldHere deltaHere (.there key isOld found level)
  · rintro ⟨here, below⟩ oldHere deltaHere level
    cases level with
    | here => exact here
    | there key isOld found level => exact below key _ _ isOld found oldHere deltaHere level

theorem covers_of_not_objects (notBoth : ¬ (old.isObject = true ∧ delta.isObject = true)) :
    Covers old delta := fun _ _ level => absurd level.objects notBoth

theorem same_delta_iff (isObject : old.isObject = true) (deltaObject : delta.isObject = true) :
    Same delta (deepMerge old delta) ↔ Covers old delta := by
  induction delta using get?_induction generalizing old with
  -- Induction over the delta; a key that only the old value has spoils it.
  | step delta ih =>
    rw [same_iff_get? deltaObject (isObject_deepMerge deltaObject), covers_iff isObject deltaObject]
    constructor
    · intro values
      refine ⟨fun key isOld missing => ?_, fun key oldValue deltaValue isOld found => ?_⟩
      · have here := values key
        rw [get?_deepMerge isObject deltaObject, missing, elim_none] at here
        obtain ⟨oldValue, isOldValue⟩ := ne_none_iff_exists'.mp isOld
        rw [isOldValue] at here
        cases here
      · have here := values key
        rw [get?_deepMerge isObject deltaObject, found, isOld, elim_some, elim_some] at here
        cases here with
        | some same =>
          by_cases objects : oldValue.isObject = true ∧ deltaValue.isObject = true
          · exact (ih key deltaValue found objects.1 objects.2).mp same
          · exact covers_of_not_objects objects
    · rintro ⟨here, below⟩ key
      rw [get?_deepMerge isObject deltaObject]
      cases found : delta.get? key with
      | none =>
        have none : old.get? key = none := by
          by_contra isOld
          exact here key isOld found
        rw [elim_none, none]
        exact .none
      | some deltaValue =>
        rw [elim_some]
        refine .some ?_
        cases isOld : old.get? key with
        | none => exact Same.refl deltaValue
        | some oldValue =>
          rw [elim_some]
          by_cases objects : oldValue.isObject = true ∧ deltaValue.isObject = true
          · exact (ih key deltaValue found objects.1 objects.2).mpr
              (below key oldValue deltaValue isOld found)
          · rw [deepMerge_of_not_object objects]
            exact Same.refl deltaValue

end

/-! ### `deepMergeInto` -/

def mergedValue (recurse : JSONValue Key Number → JSONValue Key Number)
    (newValue : JSONValue Key Number) (old : Option (JSONValue Key Number)) :
    JSONValue Key Number :=
  if old.any isObject ∧ newValue.isObject then (old.map recurse).getD newValue else newValue

section

omit [DecidableEq Number]

theorem putMerged_eq (recurse : JSONValue Key Number → JSONValue Key Number)
    (newValue oldJSON : JSONValue Key Number) (key : Key) :
    putMerged recurse newValue oldJSON key =
      oldJSON.put key (mergedValue recurse newValue (oldJSON.get? key)) := by
  rw [putMerged, mergedValue]
  cases oldJSON.get? key with
  | none => simp
  | some =>
    simp only [any_some, map_some, getD_some]
    split
    next => rfl
    next => rfl

theorem deepMergeInto_spec (isObject : old.isObject = true) (deltaObject : delta.isObject = true) :
    (deepMergeInto delta old).isObject = true ∧ ∀ key, (deepMergeInto delta old).get? key =
      ((delta.get? key).map fun value => mergedValue (deepMergeInto value) value
        (old.get? key)).or (old.get? key) := by
  cases delta with
  | object _ distinct value =>
    rw [deepMergeInto]
    simp only [putMerged_eq]
    obtain ⟨isObjectAfter, values⟩ := get?_foldl
      (fun key old => some (mergedValue (deepMergeInto (value key)) (value key) old))
      (fun a key isObject => isObject_put isObject key _)
      (fun a key isObject => get?_put_self isObject key _)
      (fun a key other _ differs => get?_put_of_ne differs a _) distinct isObject
    refine ⟨isObjectAfter, fun key => ?_⟩
    rw [values, get?]
    split
    next => rfl
    next => rfl
  | null | bool | number | string | array => cases deltaObject

theorem same_deepMergeInto (isObject : old.isObject = true) (deltaObject : delta.isObject = true) :
    Same (deepMergeInto delta old) (deepMerge old delta) := by
  induction delta using get?_induction generalizing old with
  | step delta ih =>
    obtain ⟨mergedObject, values⟩ := deepMergeInto_spec isObject deltaObject
    rw [same_iff_get? mergedObject (isObject_deepMerge deltaObject)]
    intro key
    rw [values, get?_deepMerge isObject deltaObject]
    cases found : delta.get? key with
    | none =>
      rw [map_none, none_or, elim_none]
      cases old.get? key with
      | none => exact .none
      | some oldValue => exact .some (Same.refl oldValue)
    | some deltaValue =>
      rw [map_some, some_or, elim_some]
      refine .some ?_
      cases isOld : old.get? key with
      | none =>
        rw [mergedValue, if_neg (fun both => by cases both.1)]
        exact Same.refl deltaValue
      | some oldValue =>
        rw [mergedValue, any_some, map_some, getD_some, elim_some]
        split
        next objects => exact ih key deltaValue found objects.1 objects.2
        next notBoth =>
          rw [deepMerge_of_not_object notBoth]
          exact Same.refl deltaValue

end

end ReactNative
