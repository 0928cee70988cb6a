import ReactNative.Storage.AsyncStorageAnswers
import ReactNative.Storage.StorageCorrectness

/-! `multiMerge` of one entry, on both platforms, as long as nothing else fails. The texts are read
and written by the JSON library of the platform (`JSONLibrary`). -/
namespace ReactNative

open JSONValue Option AsyncLocalStorage AsyncStorageModule

structure JSONLibrary (Key Number : Type) where
  parse : List UInt16 → Option (JSONValue Key Number)
  stringify : JSONValue Key Number → List UInt16

variable {Key Number : Type} (library : JSONLibrary Key Number)

/-- The text that is written for a value is read as that value. -/
def JSONLibrary.ReadsBack (value : JSONValue Key Number) : Prop :=
  ∃ read, library.parse (library.stringify value) = some read ∧ Same read value

def JSONLibrary.Holds (stored : Option (List UInt16)) (value : JSONValue Key Number) : Prop :=
  ∃ text read, stored = some text ∧ library.parse text = some read ∧ Same read value

variable [DecidableEq Key] [DecidableEq Number]

/-- The text that `multiMerge` writes on iOS for a key that has a value. -/
def mergedEntryText (library : JSONLibrary Key Number) (value entryValue : NSString) :
    Option NSString :=
  match library.parse value, library.parse entryValue with
  | some mergedVal, some source =>
    let (mergedVal, modified) := mergeRecursive source mergedVal
    some (if modified then library.stringify mergedVal else entryValue)
  | _, _ => none

variable {FileName : Type} [DecidableEq FileName] (md5Hash : NSString → FileName)
  (library : JSONLibrary Key Number)

/-- What iOS has for the key after a merge of the text. -/
def mergedOnIOS (storage : AsyncLocalStorage FileName) (key deltaText : NSString) :
    Option NSString :=
  (storage.perform md5Hash (mergedEntryText library)
    (.multiMerge [{ key, value := deltaText }] {})).1.readBack md5Hash key

omit [DecidableEq Number] in
/-- What Android has for the key after a merge of the text. -/
def mergedOnAndroid (table : CatalystTable) (key deltaText : JavaString) : Option JavaString :=
  (AsyncStorageModule.multiMerge library.parse library.stringify {} [.ofPair (key, deltaText)]
    table).table.getItem key

variable {md5Hash library} {old delta : JSONValue Key Number} {key oldText deltaText : NSString}

/-! ### iOS -/

section

variable {used : Set NSString} {storage : AsyncLocalStorage FileName} {store : AsyncLocalStorage.Store}

theorem mergedOnIOS_eq (stores : AsyncLocalStorage.Stores md5Hash used storage store)
    (injective : Set.InjOn md5Hash used) (nonempty : [] ∉ used) (isUsed : key ∈ used) :
    mergedOnIOS md5Hash library storage key deltaText = (store key).elim (some deltaText)
      fun oldText => (mergedEntryText library oldText deltaText).or (some oldText) := by
  have isKey : key ≠ [] := by
    rintro rfl
    exact nonempty isUsed
  have kept : storage.Kept (.multiMerge [{ key, value := deltaText }] {}) := by
    apply kept_of_faultFree
    simp [StorageCall.FaultFree]
  have storesAfter := (stores.perform (mergedEntryText library) injective nonempty
    (by simp [StorageCall.changedKeys, isUsed]) kept).1
  have written : ∀ text, setEntry store ⟨key, text, false⟩ key = some text := by
    intro text
    rw [setEntry_of_not_fails, Function.update_self]
    rintro (empty | ⟨-, fails⟩)
    · exact isKey empty
    · cases fails
  rw [mergedOnIOS, storesAfter.readBack, applyCall, List.foldl_cons,
    List.foldl_nil]
  cases stored : store key with
  | none => rw [mergeInto_of_missing _ stored, written, elim_none]
  | some oldText =>
    rw [elim_some]
    cases merges : mergedEntryText library oldText deltaText with
    | none => rw [mergeInto_of_not_json _ stored merges, stored, none_or]
    | some =>
      rw [mergeInto_of_merged _ stored merges, written, some_or]

end

theorem mergedEntryText_eq (parsesOld : library.parse oldText = some old)
    (parsesDelta : library.parse deltaText = some delta) :
    mergedEntryText library oldText deltaText = some (if (mergeRecursive delta old).2 then
      library.stringify (mergeRecursive delta old).1 else deltaText) := by
  simp [mergedEntryText, parsesOld, parsesDelta]

theorem holds_mergedEntryText_iff (isObject : old.isObject = true)
    (deltaObject : delta.isObject = true) (parsesOld : library.parse oldText = some old)
    (parsesDelta : library.parse deltaText = some delta)
    (readsBack : library.ReadsBack (mergeRecursive delta old).1) :
    library.Holds (mergedEntryText library oldText deltaText) (deepMerge old delta) ↔
      (Writes old delta ∧ ¬ Slips old delta) ∨ (¬ Writes old delta ∧ Covers old delta) := by
  rw [mergedEntryText_eq parsesOld parsesDelta, ← mergeRecursive_modified_iff isObject deltaObject,
    ← same_merge_iff isObject deltaObject, ← same_delta_iff isObject deltaObject]
  cases (mergeRecursive delta old).2 with
  | true =>
    obtain ⟨read, parses, same⟩ := readsBack
    have holds : library.Holds (some (library.stringify (mergeRecursive delta old).1))
        (deepMerge old delta) ↔ Same (mergeRecursive delta old).1 (deepMerge old delta) := by
      constructor
      · rintro ⟨text, other, isText, parsesText, sameOther⟩
        cases isText
        obtain rfl := some.inj (parses.symm.trans parsesText)
        exact same.symm.trans sameOther
      · exact fun merged => ⟨_, read, rfl, parses, same.trans merged⟩
    simpa using holds
  | false =>
    have holds : library.Holds (some deltaText) (deepMerge old delta) ↔
        Same delta (deepMerge old delta) := by
      constructor
      · rintro ⟨text, other, isText, parsesText, sameOther⟩
        cases isText
        obtain rfl := some.inj (parsesDelta.symm.trans parsesText)
        exact sameOther
      · exact fun merged => ⟨deltaText, delta, rfl, parsesDelta, merged⟩
    simpa using holds

omit [DecidableEq Number] in
theorem mergedOnAndroid_eq (table : CatalystTable) (key deltaText : JavaString) :
    mergedOnAndroid library table key deltaText =
      (mergedText library.parse library.stringify (table.getItem key)
        deltaText).or (table.getItem key) := by
  have checked : checkEntry (.ofPair (key, deltaText)) = .ok (key, deltaText) :=
    checkEntry_eq_ok_iff.mpr rfl
  rw [mergedOnAndroid]
  simp only [AsyncStorageModule.multiMerge, AsyncStorageModule.ensureDatabase,
    AsyncStorageModule.inTransaction, AsyncStorageModule.forEntries,
    checked, mergeImpl, Bool.false_eq_true, if_false]
  cases mergedText library.parse library.stringify (table.getItem key)
      deltaText with
  | none => simp
  | some text => simp [getItem_setItem]

omit [DecidableEq Number] in
theorem holds_mergedText (isObject : old.isObject = true) (deltaObject : delta.isObject = true)
    (parsesOld : library.parse oldText = some old)
    (parsesDelta : library.parse deltaText = some delta)
    (readsBack : library.ReadsBack (deepMergeInto delta old)) :
    library.Holds (mergedText library.parse library.stringify (some oldText)
      deltaText) (deepMerge old delta) := by
  obtain ⟨read, parses, same⟩ := readsBack
  refine ⟨_, read, ?_, parses, same.trans (same_deepMergeInto isObject deltaObject)⟩
  rw [mergedText, parsesOld, parsesDelta, filter_some, if_pos isObject,
    filter_some, if_pos deltaObject]

def codeUnits (text : String) : List UInt16 := text.toList.map fun char => UInt16.ofNat char.toNat

def ones (keys : List String) (distinct : keys.Nodup) : JSONValue String ℕ :=
  .object keys distinct fun _ => .number 1

def onesLibrary : JSONLibrary String ℕ where
  parse text :=
    if text = codeUnits "\x7b\x7d" then some (ones [] (by decide))
    else if text = codeUnits "\x7b\"a\":1\x7d" then some (ones ["a"] (by decide))
    else if text = codeUnits "\x7b\"b\":1\x7d" then some (ones ["b"] (by decide))
    else if text = codeUnits "\x7b\"a\":1,\"b\":1\x7d" then some (ones ["a", "b"] (by decide))
    else none
  stringify value :=
    if value.isEqual (ones ["a", "b"] (by decide)) then codeUnits "\x7b\"a\":1,\"b\":1\x7d"
    else codeUnits "\x7b\x7d"

def storageOfA : List StorageCall := [.multiSet [⟨[97], codeUnits "\x7b\"a\":1\x7d", false⟩] {}]

end ReactNative


